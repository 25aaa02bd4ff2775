import GpuRules.Config.Load

/-! What is reported while a configuration is read, and why a reading blamed. All that is said in
reading an entry, once its id is known, names the rule of that id; only what is said before that
goes by the place of the entry in its list. -/

namespace GpuRules

def Event.rule? : Event → Option UInt32
  | .malformedCriterion rule .. | .unknownFeature rule _ | .droppedException rule _
  | .unknownFields rule => some rule
  | .otherBrowser .. | .published .. => none

def LoadError.rule? : LoadError → Option UInt32
  | .duplicateId id | .missingBlacklist id | .malformedBlacklist id | .emptyBlacklist id
  | .malformedBugList id _ | .exceptionNotObject id _ => some id
  | _ => none

namespace Config

namespace Report

variable {ε α β : Type} {reported reported' : Event → Prop} {blamed blamed' : ε → Prop}

/-- No other events are reported, and there is no failure for other reasons. -/
structure Confined (reported : Event → Prop) (blamed : ε → Prop) (report : Report ε α) : Prop where
  event : ∀ event ∈ report.events, reported event
  error : ∀ error, report.outcome = .error error → blamed error

theorem Confined.imp {report : Report ε α} (h : Confined reported blamed report)
    (hreported : ∀ event, reported event → reported' event) (hblamed : ∀ error, blamed error → blamed' error) :
    Confined reported' blamed' report where
  event := fun event hmem => hreported event (h.event event hmem)
  error := fun error herror => hblamed error (h.error error herror)

theorem confined_pure (value : α) : Confined reported blamed (Pure.pure value : Report ε α) := by
  constructor
  · intro event hmem
    cases hmem
  · intro error herror
    cases herror

theorem confined_fail {error : ε} (h : blamed error) :
    Confined reported blamed (fail error : Report ε α) := by
  constructor
  · intro event hmem
    cases hmem
  · intro other herror
    cases herror
    exact h

theorem confined_note {events : List Event} (h : ∀ event ∈ events, reported event) :
    Confined reported blamed (note events : Report ε Unit) := by
  constructor
  · exact h
  · intro error herror
    cases herror

theorem confined_require {error : ε} (h : blamed error) (value : Option α) :
    Confined reported blamed (require error value) := by
  cases value with
  | none => exact confined_fail h
  | some value => exact confined_pure value

theorem confined_ofExcept {outcome : Except ε α}
    (h : ∀ error, outcome = .error error → blamed error) :
    Confined reported blamed (ofExcept outcome) := by
  constructor
  · intro event hmem
    cases hmem
  · exact h

theorem Confined.bind {first : Report ε α} {next : α → Report ε β}
    (hfirst : Confined reported blamed first) (hnext : ∀ value, Confined reported blamed (next value)) :
    Confined reported blamed (first >>= next) := by
  constructor
  · intro event hmem
    rw [events_bind, List.mem_append] at hmem
    cases hmem with
    | inl hmem => exact hfirst.event event hmem
    | inr hmem =>
      cases houtcome : first.outcome with
      | error error => simp [houtcome, Except.toOption] at hmem
      | ok value =>
        have hlater : event ∈ (next value).events := by
          simpa [houtcome, Except.toOption] using hmem
        exact (hnext value).event event hlater
  · intro error herror
    rw [outcome_bind] at herror
    cases houtcome : first.outcome with
    | error other =>
      rw [houtcome] at herror
      cases herror
      exact hfirst.error error houtcome
    | ok value =>
      rw [houtcome] at herror
      exact (hnext value).error error herror

abbrev Names (owner : UInt32) (report : Report LoadError α) : Prop :=
  report.Confined (·.rule? = some owner) (·.rule? = some owner)

end Report

open Json (Members)
open Report (Names)

theorem names_note {owner : UInt32} {event : Event} (h : event.rule? = some owner) :
    Names owner (Report.note [event]) := by
  apply Report.confined_note
  intro other hmem
  obtain rfl := List.mem_singleton.mp hmem
  exact h

theorem names_require {α : Type} {owner : UInt32} {error : LoadError} (h : error.rule? = some owner)
    (value : Option α) : Names owner (Report.require error value) := by
  apply Report.confined_require
  exact h

theorem names_readBugs (owner : UInt32) (list : BugList) (items : Option (List Json)) :
    Names owner (readBugs owner list items) := by
  cases items with
  | none => exact Report.confined_pure []
  | some items => exact names_require rfl (items.mapM bug?)

theorem names_readBody (owner : UInt32) (members : Members) :
    Names owner (readBody owner members) := by
  unfold readBody
  apply (names_readBugs owner _ _).bind
  intro crBugs
  apply (names_readBugs owner _ _).bind
  intro webkitBugs
  apply Report.Confined.bind
  · apply Report.confined_note
    intro event hmem
    obtain ⟨error, -, rfl⟩ := List.mem_map.mp hmem
    rfl
  · intro _
    exact Report.confined_pure _

theorem names_noteUnknown (owner : UInt32) (unknown : Bool) :
    Names owner (noteUnknown owner unknown) := by
  cases unknown with
  | false => exact Report.confined_pure ()
  | true => exact names_note rfl

theorem names_readException (owner : UInt32) (members : Members) :
    Names owner (readException owner members) := by
  unfold readException
  apply (names_readBody owner members).bind
  intro body
  apply (names_noteUnknown owner _).bind
  intro _
  exact Report.confined_pure _

theorem names_readExceptions (owner : UInt32) (index : Nat) (items : List Json) :
    Names owner (readExceptions owner index items) := by
  induction items generalizing index with
  | nil => exact Report.confined_pure _
  | cons item items ih =>
    have hitem : Names owner (.require (.exceptionNotObject owner index) item.object?) :=
      names_require rfl _
    unfold readExceptions
    apply hitem.bind
    intro members
    apply (names_readException owner members).bind
    intro rule
    split
    · apply (names_note rfl).bind
      intro _
      apply (ih (index + 1)).bind
      intro rest
      exact Report.confined_pure _
    · apply (ih (index + 1)).bind
      intro rest
      exact Report.confined_pure _

theorem names_readFeatures (id : UInt32) (items : List Json) :
    Names id (readFeatures id items) := by
  induction items with
  | nil => exact Report.confined_pure _
  | cons item items ih =>
    have hitem : Names id (.require (.malformedBlacklist id) item.string?) :=
      names_require rfl _
    unfold readFeatures
    apply hitem.bind
    intro name
    split
    · apply ih.bind
      intro rest
      exact Report.confined_pure _
    · apply (names_note rfl).bind
      intro _
      apply ih.bind
      intro rest
      exact Report.confined_pure _

/-- Reading an entry is reading its id and then the rest, which does not depend on the place where
the entry stands. -/
theorem exists_readEntry_eq (members : Members) :
    ∃ rest : UInt32 → Report LoadError Rule, (∀ id, Names id (rest id)) ∧
      ∀ index, readEntry index members =
        Report.require (.invalidId index) (members.get? "id" >>= id?) >>= rest := by
  unfold readEntry
  refine ⟨_, ?_, fun index => rfl⟩
  intro id
  have hlist : Names id
      (.require (.missingBlacklist id) (members.get? "blacklist" >>= Json.array?)) :=
    names_require rfl _
  apply (names_readBody id members).bind
  intro body
  apply hlist.bind
  intro names
  split
  · exact Report.confined_fail rfl
  · apply (names_readFeatures id names).bind
    intro features
    apply (names_readExceptions id 0 _).bind
    intro exceptions
    apply (names_noteUnknown id _).bind
    intro _
    exact Report.confined_pure _

end Config

end GpuRules
