import GpuRules.Proofs.Reading.Value
import GpuRules.Proofs.Reports.Subject

/-! The places of entries in their list. What is reported of an entry goes by its place only until
the id is known, so entries that stand further on are read as they would be otherwise, with later
places in the report. -/

namespace GpuRules

def shiftPlace (start more place : Nat) : Nat :=
  if start ≤ place then place + more else place

theorem shiftPlace_of_le {start place : Nat} (more : Nat) (h : start ≤ place) :
    shiftPlace start more place = place + more := if_pos h

theorem shiftPlace_of_lt {start place : Nat} (more : Nat) (h : place < start) :
    shiftPlace start more place = place := if_neg (Nat.not_le_of_lt h)

def Event.shift (start more : Nat) : Event → Event
  | .otherBrowser place browser => .otherBrowser (shiftPlace start more place) browser
  | event => event

def LoadError.shift (start more : Nat) : LoadError → LoadError
  | .entryNotObject place => .entryNotObject (shiftPlace start more place)
  | .invalidId place => .invalidId (shiftPlace start more place)
  | .malformedBrowserVersion place cause =>
    .malformedBrowserVersion (shiftPlace start more place) cause
  | error => error

theorem Event.shift_of_rule? {event : Event} {rule : UInt32} (h : event.rule? = some rule)
    (start more : Nat) : event.shift start more = event := by
  cases event with
  | otherBrowser => cases h
  | _ => rfl

theorem LoadError.shift_of_rule? {error : LoadError} {rule : UInt32}
    (h : error.rule? = some rule) (start more : Nat) : error.shift start more = error := by
  cases error with
  | entryNotObject => cases h
  | invalidId => cases h
  | malformedBrowserVersion => cases h
  | _ => rfl

namespace Config

namespace Report

variable {α β : Type} {start more : Nat}

def shift (start more : Nat) (report : Report LoadError α) : Report LoadError α :=
  ⟨report.events.map (Event.shift start more), report.outcome.mapError (LoadError.shift start more)⟩

@[simp] theorem shift_bind (first : Report LoadError α) (next : α → Report LoadError β) :
    (first >>= next).shift start more =
      first.shift start more >>= fun value => (next value).shift start more := by
  cases first with
  | mk events outcome =>
    cases outcome with
    | error error => rfl
    | ok value =>
      simp only [shift, Bind.bind, bind, Except.mapError, List.map_append]

theorem shift_of_names {owner : UInt32} {report : Report LoadError α} (h : Names owner report) :
    report.shift start more = report := by
  have hevents : report.events.map (Event.shift start more) = report.events := by
    conv => rhs; rw [← List.map_id report.events]
    apply List.map_congr_left
    intro event hmem
    exact Event.shift_of_rule? (h.event event hmem) start more
  have houtcome : report.outcome.mapError (LoadError.shift start more) = report.outcome := by
    cases hread : report.outcome with
    | ok value => rfl
    | error error =>
      exact congrArg Except.error (LoadError.shift_of_rule? (h.error error hread) start more)
  unfold shift
  rw [hevents, houtcome]

theorem shift_require (error : LoadError) (value : Option α) :
    (require error value).shift start more = require (error.shift start more) value := by
  cases value <;> rfl

end Report

open Json (Members)

variable {start more : Nat}

theorem shift_readEntry (index : Nat) (members : Members) :
    (readEntry index members).shift start more =
      readEntry (shiftPlace start more index) members := by
  -- Only a missing id is reported by place. What comes after the id is reported by the id.
  obtain ⟨rest, hnames, hentry⟩ := exists_readEntry_eq members
  have hrest : (fun id => (rest id).shift start more) = rest := by
    funext id
    exact Report.shift_of_names (hnames id)
  rw [hentry, hentry, Report.shift_bind, Report.shift_require, hrest]
  rfl

theorem shift_supports (browser : Version) (index : Nat) (members : Members) :
    (Report.ofExcept ((supports browser members).mapError
        (LoadError.malformedBrowserVersion index))).shift start more =
      .ofExcept ((supports browser members).mapError
        (.malformedBrowserVersion (shiftPlace start more index))) := by
  cases supports browser members <;> rfl

/-- What is reported of an item depends on its place only in that it names it. -/
theorem shift_readItem (browser : Version) (index : Nat) (json : Json) :
    (readItem browser index json).shift start more =
      readItem browser (shiftPlace start more index) json := by
  unfold readItem
  rw [Report.shift_bind, Report.shift_require]
  congr 1
  funext members
  rw [Report.shift_bind, shift_supports]
  congr 1
  funext supported
  cases supported with
  | false => rfl
  | true =>
    simp only [↓reduceIte]
    rw [Report.shift_bind, shift_readEntry]
    rfl

theorem shift_readItems_of_le {index : Nat} (h : start ≤ index) (browser : Version)
    (seen : List UInt32) (items : List Json) :
    (readItems browser index seen items).shift start more =
      readItems browser (index + more) seen items := by
  induction items generalizing index seen with
  | nil => rfl
  | cons json rest ih =>
    have hnext : index + more + 1 = index + 1 + more := by omega
    rw [readItems, readItems, Report.shift_bind, shift_readItem, shiftPlace_of_le more h, hnext]
    congr 1
    funext rule?
    cases rule? with
    | none => exact ih (by omega) seen
    | some rule =>
      dsimp only
      split
      · rfl
      · rw [Report.shift_bind, ih (by omega)]
        rfl

theorem shift_readItems_of_lt {index : Nat} {items : List Json} (h : index + items.length ≤ start)
    (browser : Version) (seen : List UInt32) :
    (readItems browser index seen items).shift start more = readItems browser index seen items := by
  induction items generalizing index seen with
  | nil => rfl
  | cons json rest ih =>
    rw [List.length_cons] at h
    rw [readItems, Report.shift_bind, shift_readItem, shiftPlace_of_lt more (by omega)]
    congr 1
    funext rule?
    cases rule? with
    | none => exact ih (by omega) seen
    | some rule =>
      dsimp only
      split
      · rfl
      · rw [Report.shift_bind, ih (by omega)]
        rfl

end Config

end GpuRules
