import GpuRules.Proofs.Reading.Entry
import GpuRules.Proofs.Reports.Subject

/-! What the report of an entry gives account of. Its malformed criteria come first, then those of
its exceptions, also of the ones that are dropped; and something unknown is reported just if the
rule that is read is marked for it. -/

namespace GpuRules

namespace Event

/-- A warning that something is not known. That a criterion is malformed is another matter. -/
def isFlag (event : Event) : Bool :=
  event.level == .warning && event.message != "malformed criterion"

def isDropFrom (id : UInt32) : Event → Bool
  | .droppedException rule _ => rule == id
  | _ => false

def malformedSlot? (id : UInt32) : Event → Option Slot
  | .malformedCriterion rule slot _ => if rule = id then some slot else none
  | _ => none

theorem level_of_isFlag {event : Event} (h : event.isFlag) : event.level = .warning := by
  simp only [isFlag, Bool.and_eq_true, beq_iff_eq] at h
  exact h.1

theorem isFlag_malformedCriterion (rule : UInt32) (slot : Slot) (error : CriterionError) :
    isFlag (.malformedCriterion rule slot error) = false := rfl

theorem eq_droppedException_of_isDropFrom {id : UInt32} {event : Event}
    (h : event.isDropFrom id) : ∃ index, event = .droppedException id index := by
  cases event with
  | droppedException rule index =>
    obtain rfl : rule = id := eq_of_beq h
    exact ⟨index, rfl⟩
  | _ => cases h

theorem eq_malformedCriterion_of_malformedSlot? {id : UInt32} {event : Event} {slot : Slot}
    (h : event.malformedSlot? id = some slot) :
    ∃ error, event = .malformedCriterion id slot error := by
  cases event with
  | malformedCriterion rule other error =>
    obtain ⟨rfl, hslot⟩ := Option.ite_none_right_eq_some.mp h
    obtain rfl := Option.some.inj hslot
    exact ⟨error, rfl⟩
  | _ => cases h

end Event

def malformedSlots (id : UInt32) (events : List Event) : List Slot :=
  events.filterMap (Event.malformedSlot? id)

structure Account where
  unknown : Bool
  dropped : Bool
  malformed : List Slot

namespace Account

def of (id : UInt32) (events : List Event) : Account where
  unknown := events.any Event.isFlag
  dropped := events.any (Event.isDropFrom id)
  malformed := malformedSlots id events

def andThen (first next : Account) : Account where
  unknown := first.unknown || next.unknown
  dropped := first.dropped || next.dropped
  malformed := first.malformed ++ next.malformed

@[simp] theorem of_append (id : UInt32) (before after : List Event) :
    of id (before ++ after) = (of id before).andThen (of id after) := by
  simp [of, malformedSlots, andThen]

end Account

namespace Config

open Json (Members)

theorem events_readBugs (owner : UInt32) (list : BugList) (items : Option (List Json)) :
    (readBugs owner list items).events = [] := by
  cases items with
  | none => rfl
  | some items => exact Report.events_require _ _

variable {members : Members}

theorem account_readBody (owner : UInt32) {body : RuleBody} (h : body? members = some body) :
    Account.of owner (readBody owner members).events = ⟨false, false, body.malformed⟩ := by
  have hevents : (readBody owner members).events =
      (Fields.read members).errors.map fun failed =>
        .malformedCriterion owner failed.1 failed.2 := by
    simp only [body?, Option.bind_eq_bind, Option.bind_eq_some_iff] at h
    obtain ⟨crBugs, hcr, webkitBugs, hwebkit, -⟩ := h
    unfold readBody
    rw [Report.events_bind_of_value? ((value?_readBugs owner members .cr).trans hcr),
      Report.events_bind_of_value? ((value?_readBugs owner members .webkit).trans hwebkit),
      events_readBugs, events_readBugs, List.nil_append, List.nil_append,
      Report.events_bind_pure]
    rfl
  obtain ⟨crBugs, webkitBugs, rfl⟩ := body?_eq_some h
  rw [hevents]
  simp [Account.of, malformedSlots, bodyOf, Event.isFlag_malformedCriterion, Event.isDropFrom,
    Event.malformedSlot?, Function.comp_def]

theorem account_noteUnknown (owner : UInt32) (unknown : Bool) :
    Account.of owner (noteUnknown owner unknown).events = ⟨unknown, false, []⟩ := by
  cases unknown <;> rfl

theorem account_readException (owner : UInt32) {rule : Rule} (h : exception? members = some rule) :
    Account.of owner (readException owner members).events =
      ⟨rule.unknownFields, false, rule.malformed⟩ := by
  obtain ⟨body, hbody, rfl⟩ := exception?_eq_some h
  have hread : (readBody owner members).value? = some (body, sharedKeys members) := by
    rw [value?_readBody, hbody]
    rfl
  unfold readException
  rw [Report.events_bind_of_value? hread, Report.events_bind_pure, Account.of_append,
    account_readBody owner hbody, account_noteUnknown]
  simp [Account.andThen]

theorem account_droppedException (owner : UInt32) (index : Nat) :
    Account.of owner [.droppedException owner index] = ⟨true, true, []⟩ := by
  simp [Account.of, malformedSlots, Event.isFlag, Event.level, Event.message, Event.isDropFrom,
    Event.malformedSlot?]

/-- Every exception is given account of, whether it is kept or dropped. -/
theorem account_readExceptions (owner : UInt32) (index : Nat) {items : List Json}
    {exceptions : List Rule}
    (h : (items.mapM fun item => item.object? >>= exception?) = some exceptions) :
    Account.of owner (readExceptions owner index items).events =
      ⟨exceptions.any (·.unknownFields), exceptions.any (·.unknownFields),
        exceptions.flatMap (·.malformed)⟩ := by
  induction items generalizing index exceptions with
  | nil =>
    obtain rfl : [] = exceptions := by simpa using h
    rfl
  | cons item items ih =>
    simp only [List.mapM_cons, Option.bind_eq_bind, Option.bind_eq_some_iff, Option.pure_def,
      Option.some.injEq] at h
    obtain ⟨rule, ⟨members, hobject, hrule⟩, rest, hrest, rfl⟩ := h
    have hitem : (Report.require (LoadError.exceptionNotObject owner index)
        item.object?).value? = some members := by
      rw [Report.value?_require, hobject]
    have hread : (readException owner members).value? = some rule := by
      rw [value?_readException, hrule]
    have hlater := ih (index + 1) hrest
    rw [readExceptions, Report.events_bind_of_value? hitem, Report.events_require, List.nil_append,
      Report.events_bind_of_value? hread, Account.of_append, account_readException owner hrule]
    cases hunknown : rule.unknownFields with
    | true =>
      rw [if_pos rfl, Report.events_bind_of_value? (Report.value?_note _), Report.events_bind_pure,
        Account.of_append, Report.events_note, account_droppedException, hlater]
      simp [Account.andThen, hunknown]
    | false =>
      rw [if_neg (by decide), Report.events_bind_pure, hlater]
      simp [Account.andThen, hunknown]

theorem account_readFeatures (id : UInt32) {items : List Json} {names : List String}
    (h : items.mapM Json.string? = some names) :
    Account.of id (readFeatures id items).events =
      ⟨names.any fun name => (FeatureMask.ofName? name).isNone, false, []⟩ := by
  induction items generalizing names with
  | nil =>
    obtain rfl : [] = names := by simpa using h
    rfl
  | cons item items ih =>
    simp only [List.mapM_cons, Option.bind_eq_bind, Option.bind_eq_some_iff, Option.pure_def,
      Option.some.injEq] at h
    obtain ⟨name, hname, rest, hrest, rfl⟩ := h
    have hitem : (Report.require (LoadError.malformedBlacklist id) item.string?).value? =
        some name := by
      rw [Report.value?_require, hname]
    have hlater := ih hrest
    rw [readFeatures, Report.events_bind_of_value? hitem, Report.events_require, List.nil_append]
    cases hmask : FeatureMask.ofName? name with
    | some mask =>
      dsimp only
      rw [Report.events_bind_pure, hlater]
      simp [hmask]
    | none =>
      have hnote : Account.of id [.unknownFeature id name] = ⟨true, false, []⟩ := rfl
      dsimp only
      rw [Report.events_bind_of_value? (Report.value?_note _), Report.events_bind_pure,
        Account.of_append, Report.events_note, hnote, hlater]
      simp [Account.andThen, hmask]

theorem account_readEntry (index : Nat) {rule : Rule} (h : rule? members = some rule) :
    ∃ exceptions, exceptions? members = some exceptions ∧
      rule.exceptions = exceptions.filter (fun rule => !rule.unknownFields) ∧
      Account.of rule.id (readEntry index members).events =
        ⟨rule.isFlagged, exceptions.any (·.unknownFields),
          rule.malformed ++ exceptions.flatMap (·.malformed)⟩ := by
  obtain ⟨id, body, names, exceptions, hid, hbody, hnames, hexceptions, rfl⟩ := rule?_eq_some h
  refine ⟨exceptions, hexceptions, rfl, ?_⟩
  obtain ⟨items, hlist, hnames⟩ := Option.bind_eq_some_iff.mp hnames
  split at hnames
  · cases hnames
  next hempty =>
  have hreadId : (Report.require (LoadError.invalidId index)
      (members.get? "id" >>= id?)).value? = some id := by
    rw [Report.value?_require, hid]
  have hreadBody : (readBody id members).value? = some (body, sharedKeys members) := by
    rw [value?_readBody, hbody]
    rfl
  have hreadList : (Report.require (LoadError.missingBlacklist id)
      (members.get? "blacklist" >>= Json.array?)).value? = some items := by
    rw [Report.value?_require, hlist]
  have hreadFeatures := (value?_readFeatures id items).trans (congrArg (Option.map _) hnames)
  have hreadExceptions :=
    (value?_readExceptions id 0 _).trans (congrArg (Option.map _) hexceptions)
  unfold readEntry
  rw [Report.events_bind_of_value? hreadId, Report.events_require, List.nil_append,
    Report.events_bind_of_value? hreadBody, Report.events_bind_of_value? hreadList,
    Report.events_require, List.nil_append]
  simp only [if_neg hempty]
  rw [Report.events_bind_of_value? hreadFeatures, Report.events_bind_of_value? hreadExceptions,
    Report.events_bind_pure]
  simp only [Account.of_append, account_readBody id hbody, account_readFeatures id hnames,
    account_readExceptions id 0 hexceptions, account_noteUnknown, Account.andThen, Bool.false_or,
    Bool.or_false, List.nil_append, List.append_nil]
  congr 1
  exact Bool.or_comm _ _

end Config

end GpuRules
