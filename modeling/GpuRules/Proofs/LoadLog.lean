import GpuRules.Proofs.Reading.Tree
import GpuRules.Proofs.Reports.Account
import GpuRules.Proofs.UnknownKeys

/-! The log of a load against the rules that it gives. Every entry is either passed over, which is
said, or read; and since ids are distinct, what names the id of a rule is what was said in reading
its entry and nothing else. So the log tells which rules are marked for something unknown, and
which of their criteria are malformed. -/

namespace GpuRules

open Json (Members)

namespace Event

/-- The message that an entry was passed over because it is for other browsers. -/
def isPassedOver (event : Event) : Bool :=
  event.level == .debug && event.message == "entry does not apply to this browser version"

theorem isPassedOver_otherBrowser (index : Nat) (browser : Version) :
    isPassedOver (.otherBrowser index browser) := by
  simp [isPassedOver, level, message]

theorem isPassedOver_of_rule? {event : Event} {rule : UInt32} (h : event.rule? = some rule) :
    event.isPassedOver = false := by
  cases event with
  | otherBrowser => cases h
  | published => cases h
  | _ => rfl

theorem exists_rule?_of_isFlag {event : Event} (h : event.isFlag) :
    ∃ rule, event.rule? = some rule := by
  cases event with
  | otherBrowser => cases h
  | published => cases h
  | _ => exact ⟨_, rfl⟩

end Event

def aboutRule (id : UInt32) (events : List Event) : List Event :=
  events.filter (·.rule? = some id)

section About

variable {id : UInt32} {event : Event} {events : List Event}

theorem mem_aboutRule : event ∈ aboutRule id events ↔ event ∈ events ∧ event.rule? = some id := by
  simp [aboutRule]

theorem aboutRule_append (before after : List Event) :
    aboutRule id (before ++ after) = aboutRule id before ++ aboutRule id after :=
  List.filter_append before after

theorem aboutRule_eq_self (h : ∀ event ∈ events, event.rule? = some id) :
    aboutRule id events = events := by
  rw [aboutRule, List.filter_eq_self]
  intro event hmem
  simpa using h event hmem

theorem aboutRule_eq_nil (h : ∀ event ∈ events, event.rule? ≠ some id) :
    aboutRule id events = [] := by
  rw [aboutRule, List.filter_eq_nil_iff]
  intro event hmem
  simpa using h event hmem

theorem malformedSlots_aboutRule :
    malformedSlots id (aboutRule id events) = malformedSlots id events := by
  unfold malformedSlots aboutRule
  rw [List.filterMap_filter]
  apply List.filterMap_congr
  intro event _
  split
  · rfl
  next hother =>
    cases hslot : event.malformedSlot? id with
    | none => rfl
    | some slot =>
      obtain ⟨error, rfl⟩ := Event.eq_malformedCriterion_of_malformedSlot? hslot
      exact absurd (decide_eq_true rfl) hother

end About

namespace Config

/-- Items that were read without a failure, the rules of those that are for the browser, and what
was said on the way. -/
inductive Logged (browser : Version) : List Json → List Rule → List Event → Prop
  | nil : Logged browser [] [] []
  | passedOver {members : Members} {items : List Json} {rules : List Rule} {events : List Event}
      (index : Nat) :
      supports browser members = .ok false → Logged browser items rules events →
      Logged browser (.object members :: items) rules (.otherBrowser index browser :: events)
  | read {members : Members} {rule : Rule} {items : List Json} {rules : List Rule}
      {events : List Event} (index : Nat) :
      supports browser members = .ok true → rule? members = some rule →
      Logged browser items rules events →
      Logged browser (.object members :: items) (rule :: rules)
        ((readEntry index members).events ++ events)

theorem readItem_cases {browser : Version} {index : Nat} {json : Json} {rule : Option Rule}
    (h : (readItem browser index json).value? = some rule) :
    ∃ members, json = .object members ∧
      ((supports browser members = .ok false ∧ rule = none ∧
          (readItem browser index json).events = [.otherBrowser index browser]) ∨
        ∃ read, supports browser members = .ok true ∧ rule? members = some read ∧
          rule = some read ∧
          (readItem browser index json).events = (readEntry index members).events) := by
  simp only [value?_readItem, item?, Option.bind_eq_bind, Option.bind_eq_some_iff,
    object?_eq_some_iff, Report.toOption_eq_some_iff] at h
  obtain ⟨members, rfl, isFor, hsupports, hrule⟩ := h
  refine ⟨members, rfl, ?_⟩
  have hitem : readItem browser index (.object members) =
      if isFor then readEntry index members >>= fun rule => pure (some rule)
      else Report.note [.otherBrowser index browser] >>= fun _ => pure none := by
    unfold readItem
    simp only [Json.object?, Report.require_some, Report.pure_bind, hsupports, Except.mapError,
      Report.ofExcept_ok]
  cases isFor with
  | false =>
    refine .inl ⟨hsupports, (Option.some.inj hrule).symm, ?_⟩
    rw [hitem, if_neg (by decide), Report.events_bind_pure]
    rfl
  | true =>
    obtain ⟨read, hread, rfl⟩ := Option.map_eq_some_iff.mp hrule
    refine .inr ⟨read, hsupports, hread, rfl, ?_⟩
    rw [hitem, if_pos rfl, Report.events_bind_pure]

theorem logged_readItems {browser : Version} {index : Nat} {seen : List UInt32} {items : List Json}
    {rules : List Rule} (h : (readItems browser index seen items).value? = some rules) :
    Logged browser items rules (readItems browser index seen items).events := by
  induction items generalizing index seen rules with
  | nil =>
    obtain rfl : [] = rules := Option.some.inj h
    exact .nil
  | cons json items ih =>
    rw [readItems, Report.value?_bind, Option.bind_eq_some_iff] at h
    obtain ⟨item, hitem, hrest⟩ := h
    rw [readItems, Report.events_bind_of_value? hitem]
    obtain ⟨members, rfl, hpassed | hread⟩ := readItem_cases hitem
    · obtain ⟨hsupports, rfl, hevents⟩ := hpassed
      rw [hevents]
      exact .passedOver index hsupports (ih hrest)
    · obtain ⟨rule, hsupports, hrule, rfl, hevents⟩ := hread
      dsimp only at hrest ⊢
      by_cases hseen : rule.id ∈ seen
      · rw [if_pos hseen] at hrest
        cases hrest
      · rw [if_neg hseen, Report.value?_bind, Option.bind_eq_some_iff] at hrest
        obtain ⟨later, hlater, hrules⟩ := hrest
        obtain rfl := Option.some.inj hrules
        rw [if_neg hseen, hevents, Report.events_bind_pure]
        exact .read index hsupports hrule (ih hlater)

theorem rule?_of_mem_readEntry {members : Members} {rule : Rule} (h : rule? members = some rule)
    (index : Nat) : ∀ event ∈ (readEntry index members).events, event.rule? = some rule.id := by
  obtain ⟨rest, hnames, hread⟩ := exists_readEntry_eq members
  obtain ⟨id, body, names, exceptions, hid, -, -, -, rfl⟩ := rule?_eq_some h
  rw [hread, hid]
  exact (hnames id).event

section Logged

variable {browser : Version} {items : List Json} {rules : List Rule} {events : List Event}

theorem Logged.countP_isPassedOver (h : Logged browser items rules events) :
    events.countP Event.isPassedOver + rules.length = items.length := by
  induction h with
  | nil => rfl
  | passedOver index _ _ ih =>
    rw [List.countP_cons_of_pos (Event.isPassedOver_otherBrowser index browser), List.length_cons]
    omega
  | @read members rule items rules events index _ hrule _ ih =>
    have hentry : (readEntry index members).events.countP Event.isPassedOver = 0 := by
      rw [List.countP_eq_zero]
      intro event hmem
      simp [Event.isPassedOver_of_rule? (rule?_of_mem_readEntry hrule index event hmem)]
    rw [List.countP_append, hentry, List.length_cons, List.length_cons]
    omega

theorem Logged.mem_ids (h : Logged browser items rules events) {event : Event} {id : UInt32}
    (hmem : event ∈ events) (hevent : event.rule? = some id) : id ∈ rules.map (·.id) := by
  induction h with
  | nil => cases hmem
  | passedOver index _ _ ih =>
    rcases List.mem_cons.mp hmem with rfl | hmem
    · cases hevent
    · exact ih hmem
  | @read members rule items rules events index _ hrule _ ih =>
    rw [List.map_cons, List.mem_cons]
    rcases List.mem_append.mp hmem with hmem | hmem
    · have hnamed := rule?_of_mem_readEntry hrule index event hmem
      exact .inl (Option.some.inj (hevent.symm.trans hnamed))
    · exact .inr (ih hmem)

theorem Logged.forall₂_aboutRule (h : Logged browser items rules events)
    (hnodup : (rules.map (·.id)).Nodup) (before : List Event)
    (hbefore : ∀ event ∈ before, ∀ rule ∈ rules, event.rule? ≠ some rule.id) :
    List.Forall₂ (fun members rule => rule? members = some rule ∧
        ∃ index, aboutRule rule.id (before ++ events) = (readEntry index members).events)
      (supported browser items) rules := by
  -- Events about other rules may stand before, as those of this entry do for the rest.
  induction h generalizing before with
  | nil => exact .nil
  | @passedOver members items rules events index hsupports _ ih =>
    rw [supported_cons hsupports, if_neg (by decide), List.append_cons]
    apply ih hnodup
    intro event hmem rule hrule
    rcases List.mem_append.mp hmem with hmem | hmem
    · exact hbefore event hmem rule hrule
    · obtain rfl := List.mem_singleton.mp hmem
      exact nofun
  | @read members rule items rules events index hsupports hrule hlogged ih =>
    obtain ⟨hnew, hnodup⟩ := List.nodup_cons.mp hnodup
    have hentry := rule?_of_mem_readEntry hrule index
    rw [supported_cons hsupports, if_pos rfl]
    refine .cons ⟨hrule, index, ?_⟩ ?_
    · have hfirst : aboutRule rule.id before = [] :=
        aboutRule_eq_nil fun event hmem => hbefore event hmem rule List.mem_cons_self
      have hlast : aboutRule rule.id events = [] :=
        aboutRule_eq_nil fun event hmem hevent => hnew (hlogged.mem_ids hmem hevent)
      rw [aboutRule_append, aboutRule_append, hfirst, hlast, aboutRule_eq_self hentry,
        List.nil_append, List.append_nil]
    · rw [← List.append_assoc]
      apply ih hnodup
      intro event hmem other hother
      rcases List.mem_append.mp hmem with hmem | hmem
      · exact hbefore event hmem other (List.mem_cons_of_mem _ hother)
      · rw [hentry event hmem]
        intro hsame
        exact hnew (List.mem_map.mpr ⟨other, hother, (Option.some.inj hsame).symm⟩)

end Logged

theorem logged_ofTree {options : LoadOptions} {tree : Json} {set : RuleSet}
    (h : (RuleSet.ofTree options tree).outcome = .ok set) :
    ∃ browser items loaded,
      Version.parse options.browserVersion = .ok browser ∧ entries? tree = some items ∧
      Logged browser items loaded (RuleSet.ofTree options tree).events ∧
      (loaded.map (·.id)).Nodup ∧ set.rules = loaded.filter options.keeps ∧
      set.unknown = loaded.any Rule.isFlagged := by
  obtain ⟨version, items, browser, loaded, hschema, hitems, hbrowser, hrules, hnodup, rfl⟩ :=
    outcome_ofTree_eq_ok_iff.mp h
  refine ⟨browser, items, loaded, hbrowser, hitems, ?_, hnodup, rfl, rfl⟩
  have hread : (readItems browser 0 [] items).value? = some loaded :=
    value?_readItems_eq_some_iff.mpr ⟨hrules, hnodup, fun _ _ => List.not_mem_nil⟩
  have hevents : (RuleSet.ofTree options tree).events = (readItems browser 0 [] items).events := by
    simp only [schema?, entries?, Option.bind_eq_bind, Option.bind_eq_some_iff,
      Report.toOption_eq_some_iff] at hschema hitems
    obtain ⟨root, hroot, text, ⟨json, htext, hstring⟩, hversion⟩ := hschema
    obtain ⟨root', hroot', list, hlist, harray⟩ := hitems
    obtain rfl := Option.some.inj (hroot.symm.trans hroot')
    unfold RuleSet.ofTree
    simp only [hroot, htext, hlist, hbrowser, hversion, hstring, harray, Report.require_some,
      Option.bind_eq_bind, Option.bind_some, Report.pure_bind, Report.ofExcept_ok, Except.mapError,
      Report.events_bind_pure]
  rw [hevents]
  exact logged_readItems hread

/-- What the log says of a rule is what is the matter with it. -/
structure Faithful (events : List Event) (members : Members) (rule : Rule) : Prop where
  flagged : rule.isFlagged ↔ ∃ event ∈ events, event.rule? = some rule.id ∧ event.isFlag
  dropped : DropsException members ↔ ∃ index, .droppedException rule.id index ∈ events
  malformed : ¬DropsException members →
    malformedSlots rule.id events = rule.malformed ++ rule.exceptions.flatMap (·.malformed)
  silent : (∀ event ∈ events, event.level = .warning → event.rule? ≠ some rule.id) →
    rule.isFlagged = false ∧ rule.malformed = [] ∧
      ∀ exception ∈ rule.exceptions, exception.malformed = []

theorem faithful_of_aboutRule {events : List Event} {members : Members} {rule : Rule} {index : Nat}
    (h : rule? members = some rule)
    (habout : aboutRule rule.id events = (readEntry index members).events) :
    Faithful events members rule := by
  obtain ⟨exceptions, hexceptions, hkept, haccount⟩ := account_readEntry index h
  rw [← habout] at haccount
  obtain ⟨hunknown, hdropped, hmalformed⟩ := Account.mk.inj haccount
  have hflagged : rule.isFlagged ↔
      ∃ event ∈ events, event.rule? = some rule.id ∧ event.isFlag := by
    rw [← hunknown, List.any_eq_true]
    simp only [mem_aboutRule, and_assoc]
  have hdrops : DropsException members ↔ ∃ index, .droppedException rule.id index ∈ events := by
    rw [← dropsException_iff hexceptions, ← hdropped, List.any_eq_true]
    constructor
    · rintro ⟨event, hmem, hdrop⟩
      obtain ⟨place, rfl⟩ := Event.eq_droppedException_of_isDropFrom hdrop
      exact ⟨place, (mem_aboutRule.mp hmem).1⟩
    · rintro ⟨place, hmem⟩
      exact ⟨_, mem_aboutRule.mpr ⟨hmem, rfl⟩, beq_self_eq_true _⟩
  have hslots : malformedSlots rule.id events =
      rule.malformed ++ exceptions.flatMap (·.malformed) := by
    rw [← malformedSlots_aboutRule]
    exact hmalformed
  have hall (h : ¬DropsException members) : rule.exceptions = exceptions := by
    rw [← dropsException_iff hexceptions] at h
    rw [hkept, List.filter_eq_self]
    simpa using h
  refine ⟨hflagged, hdrops, ?_, ?_⟩
  · intro h
    rw [hslots, hall h]
  · intro hsilent
    have hnoflag : rule.isFlagged = false := by
      rw [← Bool.not_eq_true, hflagged]
      rintro ⟨event, hmem, hrule, hflag⟩
      exact hsilent event hmem (Event.level_of_isFlag hflag) hrule
    have hnone : malformedSlots rule.id events = [] := by
      unfold malformedSlots
      rw [List.filterMap_eq_nil_iff]
      intro event hmem
      cases hslot : event.malformedSlot? rule.id with
      | none => rfl
      | some slot =>
        obtain ⟨error, rfl⟩ := Event.eq_malformedCriterion_of_malformedSlot? hslot
        exact absurd rfl (hsilent _ hmem rfl)
    rw [hslots, List.append_eq_nil_iff, List.flatMap_eq_nil_iff] at hnone
    refine ⟨hnoflag, hnone.1, fun exception hmem => hnone.2 exception ?_⟩
    rw [hkept] at hmem
    exact (List.mem_filter.mp hmem).1

end Config

open Config

/-- A load that succeeds has said of every entry that it was passed over, or else gives its rule.
What was said of the rules is what is the matter with them, also with those that the filter leaves
out. -/
theorem load_log_faithful {options : LoadOptions} {tree : Json} {set : RuleSet}
    (h : (RuleSet.ofTree options tree).outcome = .ok set) :
    ∃ browser items loaded,
      Version.parse options.browserVersion = .ok browser ∧ entries? tree = some items ∧
      set.rules = loaded.filter options.keeps ∧
      (set.unknown ↔ ∃ event ∈ (RuleSet.ofTree options tree).events, event.isFlag) ∧
      (RuleSet.ofTree options tree).events.countP Event.isPassedOver + loaded.length =
        items.length ∧
      List.Forall₂
        (fun members rule => (∀ index, (readEntry index members).outcome = .ok rule) ∧
          Faithful (RuleSet.ofTree options tree).events members rule)
        (supported browser items) loaded := by
  obtain ⟨browser, items, loaded, hbrowser, hitems, hlogged, hnodup, hrules, hunknown⟩ :=
    logged_ofTree h
  have hfaithful := (hlogged.forall₂_aboutRule hnodup [] (by simp)).imp
    fun members rule ⟨hrule, index, habout⟩ => And.intro hrule (faithful_of_aboutRule hrule habout)
  have hflagged := forall_mem_of_forall₂ hfaithful fun members rule hboth => hboth.2.flagged
  refine ⟨browser, items, loaded, hbrowser, hitems, hrules, ?_, hlogged.countP_isPassedOver, ?_⟩
  · rw [hunknown, List.any_eq_true]
    constructor
    · rintro ⟨rule, hmem, hflag⟩
      obtain ⟨event, hevent, -, hisFlag⟩ := (hflagged rule hmem).mp hflag
      exact ⟨event, hevent, hisFlag⟩
    · rintro ⟨event, hevent, hisFlag⟩
      obtain ⟨id, hid⟩ := Event.exists_rule?_of_isFlag hisFlag
      obtain ⟨rule, hmem, rfl⟩ := List.mem_map.mp (hlogged.mem_ids hevent hid)
      exact ⟨rule, hmem, (hflagged rule hmem).mpr ⟨event, hevent, hid, hisFlag⟩⟩
  · apply hfaithful.imp
    rintro members rule ⟨hrule, hboth⟩
    refine ⟨fun index => ?_, hboth⟩
    rw [← Report.value?_eq_some_iff, value?_readEntry, hrule]

/-- An entry for later browsers, one for another platform that has a key and a feature that are
unknown, and one with a vendor that is no number and an exception with a date that is none. -/
def notedTree : Json :=
  .object [
    ("version", .string "1.0"),
    ("entries", .array [
      .object [
        ("browser_version", .object [("op", .string ">"), ("number", .string "5")])],
      .object [
        ("id", .integer 9),
        ("blacklist", .array [.string "webgl", .string "teleport"]),
        ("os", .object [("type", .string "win")]),
        ("note", .null)],
      .object [
        ("id", .integer 7),
        ("blacklist", .array [.string "webgl"]),
        ("vendor_id", .string "nvidia"),
        ("exceptions", .array [
          .object [("driver_date", .object [("op", .string "<"), ("number", .string "2010")])]])]])]

theorem load_log_faithful_notedTree :
    ∃ set, (RuleSet.ofTree ⟨"0", .currentOs, .linux⟩ notedTree).outcome = .ok set ∧
      (set.rules.map (·.id) = [7] ∧
        (RuleSet.ofTree ⟨"0", .currentOs, .linux⟩ notedTree).events.map Event.message =
          ["entry does not apply to this browser version", "unknown blacklisted feature",
            "entry has unknown fields", "malformed criterion", "malformed criterion"] ∧
        malformedSlots 7 (RuleSet.ofTree ⟨"0", .currentOs, .linux⟩ notedTree).events =
          [.vendorId, .driverDate]) ∧
      ∃ browser items loaded,
        (set.unknown ↔
          ∃ event ∈ (RuleSet.ofTree ⟨"0", .currentOs, .linux⟩ notedTree).events, event.isFlag) ∧
        List.Forall₂
          (fun members rule => (∀ index, (readEntry index members).outcome = .ok rule) ∧
            Faithful (RuleSet.ofTree ⟨"0", .currentOs, .linux⟩ notedTree).events members rule)
          (supported browser items) loaded := by
  have hread : (RuleSet.ofTree ⟨"0", .currentOs, .linux⟩ notedTree).outcome.toOption.map
      (fun set => set.rules.map (·.id)) = some [7] := by decide +kernel
  obtain ⟨set, hset, hids⟩ := Option.map_eq_some_iff.mp hread
  rw [Report.toOption_eq_some_iff] at hset
  obtain ⟨browser, items, loaded, -, -, -, hunknown, -, hfaithful⟩ := load_log_faithful hset
  refine ⟨set, hset, ⟨hids, ?_, ?_⟩, browser, items, loaded, hunknown, hfaithful⟩
  · decide +kernel
  · decide +kernel

end GpuRules
