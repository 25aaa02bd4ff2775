import GpuRules.Proofs.Reports.Subject
import GpuRules.Session

/-! Sessions publish all or nothing. Along every run of commands the current rule set is the one
that the last successful command put there, a command that fails is without effect, and a rule set
that is held stays the current one just until the next success. -/

namespace GpuRules

open Config (Report)

def Event.isPublication : Event → Bool
  | .published .. => true
  | _ => false

def Reply.published? : Reply → Option Published
  | .published set => some set
  | _ => none

/-- What a command reads in order to publish it. Other commands publish nothing. -/
def Command.reading? : Command → Option (Report SourceError RuleSet)
  | .load options tree => some ((RuleSet.ofTree options tree).mapError .load)
  | .loadText options text => some (RuleSet.ofText options text)
  | .publish set => some (pure set)
  | .notify _ | .current | .hold => none

theorem Event.isPublication_eq_false_of_rule? {event : Event} {rule : UInt32}
    (h : event.rule? = some rule) : event.isPublication = false := by
  cases event with
  | published => cases h
  | _ => rfl

namespace Config

abbrev Report.Unpublished {ε α : Type} (report : Report ε α) : Prop :=
  report.Confined (·.isPublication = false) fun _ => True

theorem Report.Unpublished.filter_events {ε α : Type} {report : Report ε α}
    (h : report.Unpublished) : report.events.filter Event.isPublication = [] := by
  rw [List.filter_eq_nil_iff]
  intro event hmem
  simp [h.event event hmem]

theorem Report.Unpublished.mapError {ε ε' α : Type} {report : Report ε α} (h : report.Unpublished)
    (f : ε → ε') : (report.mapError f).Unpublished where
  event := h.event
  error := fun _ _ => trivial

theorem unpublished_readItem (browser : Version) (index : Nat) (json : Json) :
    (readItem browser index json).Unpublished := by
  unfold readItem
  apply (Report.confined_require trivial _).bind
  intro members
  apply (Report.confined_ofExcept fun _ _ => trivial).bind
  intro supported
  split
  · obtain ⟨rest, hrest, hentry⟩ := exists_readEntry_eq members
    rw [hentry index]
    apply Report.Confined.bind
    · apply (Report.confined_require trivial _).bind
      intro id
      apply (hrest id).imp
      · intro event hrule
        exact Event.isPublication_eq_false_of_rule? hrule
      · intro _ _
        trivial
    · intro rule
      exact Report.confined_pure _
  · apply Report.Confined.bind
    · apply Report.confined_note
      intro event hmem
      obtain rfl := List.mem_singleton.mp hmem
      rfl
    · intro _
      exact Report.confined_pure _

theorem unpublished_readItems (browser : Version) (index : Nat) (seen : List UInt32)
    (items : List Json) : (readItems browser index seen items).Unpublished := by
  induction items generalizing index seen with
  | nil => exact Report.confined_pure _
  | cons json rest ih =>
    unfold readItems
    apply (unpublished_readItem browser index json).bind
    intro rule?
    cases rule? with
    | none => exact ih (index + 1) seen
    | some rule =>
      dsimp only
      split
      · exact Report.confined_fail trivial
      · apply (ih (index + 1) (rule.id :: seen)).bind
        intro rules
        exact Report.confined_pure _

end Config

open Config

theorem RuleSet.unpublished_ofTree (options : LoadOptions) (tree : Json) :
    (ofTree options tree).Unpublished := by
  have hrequire {α : Type} (error : LoadError) (value : Option α) :
      (Report.require error value).Unpublished := Report.confined_require trivial value
  have hexcept {α : Type} (outcome : Except LoadError α) : (Report.ofExcept outcome).Unpublished :=
    Report.confined_ofExcept fun _ _ => trivial
  unfold ofTree
  apply (hrequire _ _).bind
  intro root
  apply (hrequire _ _).bind
  intro text
  apply (hexcept _).bind
  intro version
  apply (hrequire _ _).bind
  intro list
  apply (hexcept _).bind
  intro browser
  apply (unpublished_readItems browser 0 [] list).bind
  intro rules
  exact Report.confined_pure _

theorem RuleSet.unpublished_ofText (options : LoadOptions) (text : String) :
    (ofText options text).Unpublished := by
  unfold ofText
  split
  next tree _ => exact (unpublished_ofTree options tree).mapError _
  next => exact Report.confined_fail trivial

namespace Session

abbrev Answer := Reply × List Event

def run (session : Session) : List Command → Session × List Answer
  | [] => (session, [])
  | command :: commands =>
    let step := session.step command
    let rest := step.1.run commands
    (rest.1, step.2 :: rest.2)

def publications (answers : List Answer) : List Published :=
  answers.filterMap fun answer => answer.1.published?

theorem publications_cons_of_some {answer : Answer} {set : Published}
    (h : answer.1.published? = some set) (answers : List Answer) :
    publications (answer :: answers) = set :: publications answers :=
  List.filterMap_cons_some h

theorem publications_cons_of_none {answer : Answer} (h : answer.1.published? = none)
    (answers : List Answer) : publications (answer :: answers) = publications answers :=
  List.filterMap_cons_none h

/-- What has to come of a command, given the outcome of what it reads: a new rule set, the session
as it was, or at least the same rule set. -/
def AllOrNothing (now next : Session) (answer : Answer) :
    Option (Except SourceError RuleSet) → Prop
  | some (.ok set) =>
    next = { now with current := ⟨now.current.serial + 1, set⟩ } ∧
      answer.1 = .published next.current ∧
      answer.2.filter Event.isPublication = [.published set.version set.rules.length set.maxId]
  | some (.error error) =>
    next = now ∧ answer.1 = .failed error ∧ answer.2.filter Event.isPublication = []
  | none => next.current = now.current ∧ answer.1.published? = none ∧ answer.2 = []

theorem publishRead_allOrNothing (now : Session) {report : Report SourceError RuleSet}
    (h : report.Unpublished) :
    AllOrNothing now (now.publishRead report).1 (now.publishRead report).2
      (some report.outcome) := by
  cases report with
  | mk events outcome =>
    cases outcome with
    | error error => exact ⟨rfl, rfl, h.filter_events⟩
    | ok set =>
      have hevents : (events ++ [Event.published set.version set.rules.length set.maxId]).filter
          Event.isPublication = [.published set.version set.rules.length set.maxId] := by
        rw [List.filter_append, h.filter_events]
        rfl
      exact ⟨rfl, rfl, hevents⟩

theorem step_allOrNothing (now : Session) (command : Command) :
    AllOrNothing now (now.step command).1 (now.step command).2
      (command.reading?.map Report.outcome) := by
  cases command with
  | load options tree =>
    exact publishRead_allOrNothing now ((RuleSet.unpublished_ofTree options tree).mapError SourceError.load)
  | loadText options text =>
    exact publishRead_allOrNothing now (RuleSet.unpublished_ofText options text)
  | publish set => exact ⟨rfl, rfl, rfl⟩
  | notify hardware => exact ⟨rfl, rfl, rfl⟩
  | current => exact ⟨rfl, rfl, rfl⟩
  | hold => exact ⟨rfl, rfl, rfl⟩

theorem step_current (now : Session) (command : Command) :
    ((now.step command).2.1.published? = some (now.step command).1.current ∧
        (now.step command).1.current.serial = now.current.serial + 1) ∨
      ((now.step command).2.1.published? = none ∧
        (now.step command).1.current = now.current) := by
  have hstep := step_allOrNothing now command
  cases hreading : command.reading?.map Report.outcome with
  | none =>
    rw [hreading] at hstep
    exact .inr ⟨hstep.2.1, hstep.1⟩
  | some outcome =>
    rw [hreading] at hstep
    cases outcome with
    | error error =>
      obtain ⟨hnext, hreply, -⟩ := hstep
      rw [hreply, hnext]
      exact .inr ⟨rfl, rfl⟩
    | ok set =>
      obtain ⟨hnext, hreply, -⟩ := hstep
      rw [hreply, hnext]
      exact .inl ⟨rfl, rfl⟩

theorem held_publishRead (now : Session) (report : Report SourceError RuleSet) :
    (now.publishRead report).1.held = now.held := by
  unfold publishRead
  split <;> rfl

/-- Held rule sets are never taken away, so a place among them is good for ever. -/
theorem step_held (now : Session) (command : Command) :
    now.held <+: (now.step command).1.held := by
  cases command with
  | load options tree => exact (held_publishRead now _).symm ▸ List.prefix_rfl
  | loadText options text => exact (held_publishRead now _).symm ▸ List.prefix_rfl
  | publish set => exact List.prefix_rfl
  | notify hardware => exact List.prefix_rfl
  | current => exact List.prefix_rfl
  | hold => exact List.prefix_append _ _

theorem run_current (session : Session) (commands : List Command) :
    (session.run commands).1.current =
        (publications (session.run commands).2).getLastD session.current ∧
      (session.run commands).1.current.serial =
        session.current.serial + (publications (session.run commands).2).length := by
  induction commands generalizing session with
  | nil => exact ⟨rfl, rfl⟩
  | cons command commands ih =>
    obtain ⟨hcurrent, hserial⟩ := ih (session.step command).1
    rcases step_current session command with ⟨hreply, hnew⟩ | ⟨hreply, hsame⟩
    · rw [run, publications_cons_of_some hreply, List.getLastD_cons, List.length_cons]
      refine ⟨hcurrent, ?_⟩
      dsimp only
      omega
    · rw [run, publications_cons_of_none hreply, ← hsame]
      exact ⟨hcurrent, hserial⟩

theorem run_held (session : Session) (commands : List Command) :
    session.held <+: (session.run commands).1.held := by
  induction commands generalizing session with
  | nil => exact List.prefix_rfl
  | cons command commands ih =>
    exact (step_held session command).trans (ih (session.step command).1)

theorem isSame_run_iff (session : Session) (commands : List Command) :
    session.current.isSame (session.run commands).1.current ↔
      publications (session.run commands).2 = [] := by
  unfold Published.isSame
  rw [(run_current session commands).2, beq_iff_eq, ← List.length_eq_zero_iff]
  omega

/-- A command amid a session: the rule set that it finds, what comes of it, and how long the rule
set that it leaves stays the current one. -/
theorem run_allOrNothing (before : List Command) (command : Command) (after : List Command) :
    let past := run {} before
    let now := past.1
    let next := (now.step command).1
    let answer := (now.step command).2
    let later := next.run after
    now.current = (publications past.2).getLastD ⟨0, {}⟩ ∧
      AllOrNothing now next answer (command.reading?.map Report.outcome) ∧
      (match command with
        | .notify hardware =>
          next = now ∧ answer.1 = .evaluated (now.current.set.evaluate hardware)
        | .current => next = now ∧ answer.1 = .current now.current
        | .hold => ∃ place, answer.1 = .held place ∧ later.1.held[place]? = some now.current
        | _ => True) ∧
      (next.current.isSame later.1.current ↔ publications later.2 = []) ∧
      (next.current.isSame later.1.current ↔ next.current = later.1.current) := by
  intro past now next answer later
  have hsame : next.current.isSame later.1.current ↔ publications later.2 = [] :=
    isSame_run_iff next after
  refine ⟨(run_current {} before).1, step_allOrNothing now command, ?_, hsame, ?_, ?_⟩
  · cases command with
    | notify hardware => exact ⟨rfl, rfl⟩
    | current => exact ⟨rfl, rfl⟩
    | hold =>
      obtain ⟨more, hmore⟩ := run_held next after
      have hheld : later.1.held = now.held ++ now.current :: more := by
        rw [← hmore]
        exact List.append_assoc now.held [now.current] more
      refine ⟨now.held.length, rfl, ?_⟩
      simp [hheld]
    | _ => trivial
  · intro h
    have hlast := (run_current next after).1
    rw [hsame.mp h] at hlast
    exact hlast.symm
  · intro h
    rw [← h]
    exact beq_self_eq_true _

end Session

end GpuRules
