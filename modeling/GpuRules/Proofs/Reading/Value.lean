import GpuRules.Config.Report
import Mathlib.Data.List.Forall2

/-! The value of a reading once its diagnostics are left out. Values follow the steps of a reading,
so what a reader accepts can be said over options, without owners, indices or events. -/

namespace GpuRules.Config

namespace Report

variable {ε ε' α β γ : Type}

theorem bind_assoc (first : Report ε α) (next : α → Report ε β) (last : β → Report ε γ) :
    (first >>= next >>= last) = first >>= fun value => next value >>= last := by
  cases first with
  | mk events outcome =>
    cases outcome with
    | error error => rfl
    | ok value =>
      simp only [Bind.bind, bind]
      cases (next value).outcome with
      | error error => rfl
      | ok value => simp only [List.append_assoc]

theorem require_some (error : ε) (value : α) : require error (some value) = Pure.pure value := rfl

theorem ofExcept_ok (value : α) : (ofExcept (.ok value) : Report ε α) = Pure.pure value := rfl

theorem bind_pure (report : Report ε α) : (report >>= fun value => Pure.pure value) = report := by
  obtain ⟨events, outcome⟩ := report
  cases outcome with
  | error error => rfl
  | ok value => exact congrArg (Report.mk · (.ok value)) (List.append_nil events)

theorem bind_of_error {first : Report ε α} {error : ε} (h : first.outcome = .error error) (next : α → Report ε β) :
    first >>= next = ⟨first.events, .error error⟩ := by
  obtain ⟨events, outcome⟩ := first
  subst h
  rfl

@[simp] theorem events_bind_pure (report : Report ε α) (f : α → β) :
    (report >>= fun value => Pure.pure (f value)).events = report.events := by
  obtain ⟨events, outcome⟩ := report
  cases outcome with
  | error error => rfl
  | ok value => exact List.append_nil events

theorem events_note (events : List Event) : (note events : Report ε Unit).events = events := rfl

theorem events_require (error : ε) (value : Option α) : (require error value).events = [] := by
  cases value <;> rfl

def value? (report : Report ε α) : Option α := report.outcome.toOption

theorem toOption_eq_some_iff {outcome : Except ε α} {value : α} :
    outcome.toOption = some value ↔ outcome = .ok value := by
  cases outcome <;> simp [Except.toOption]

theorem isOk_iff {outcome : Except ε α} : outcome.isOk ↔ ∃ value, outcome = .ok value := by
  cases outcome <;> simp [Except.isOk, Except.toBool]

theorem bind_eq_ok_iff {first : Except ε α} {next : α → Except ε β} {value : β} :
    (first >>= next) = .ok value ↔ ∃ read, first = .ok read ∧ next read = .ok value := by
  cases first <;> simp [Bind.bind, Except.bind]

theorem value?_eq_some_iff {report : Report ε α} {value : α} :
    report.value? = some value ↔ report.outcome = .ok value :=
  toOption_eq_some_iff

@[simp] theorem value?_pure (value : α) : (Pure.pure value : Report ε α).value? = some value := rfl

@[simp] theorem value?_fail (error : ε) : (fail error : Report ε α).value? = none := rfl

@[simp] theorem value?_note (events : List Event) :
    (note events : Report ε Unit).value? = some () := rfl

@[simp] theorem value?_ofExcept (outcome : Except ε α) :
    (ofExcept outcome).value? = outcome.toOption := rfl

@[simp] theorem value?_require (error : ε) (value : Option α) :
    (require error value).value? = value := by
  cases value <;> rfl

@[simp] theorem value?_bind (first : Report ε α) (next : α → Report ε β) :
    (first >>= next).value? = first.value?.bind fun value => (next value).value? := by
  unfold value?
  rw [outcome_bind]
  cases first.outcome <;> rfl

theorem events_bind_of_value? {first : Report ε α} {value : α} (h : first.value? = some value)
    (next : α → Report ε β) : (first >>= next).events = first.events ++ (next value).events := by
  rw [events_bind]
  exact congrArg (fun read : Option α => first.events ++ (read.map fun v => (next v).events).getD []) h

theorem bind_congr {first : Report ε α} {next next' : α → Report ε β}
    (h : ∀ value, first.value? = some value → next value = next' value) :
    first >>= next = first >>= next' := by
  obtain ⟨events, outcome⟩ := first
  cases outcome with
  | error error => rfl
  | ok value =>
    have hnext := h value rfl
    simp only [Bind.bind, bind, hnext]

@[simp] theorem toOption_mapError (f : ε → ε') (outcome : Except ε α) :
    (outcome.mapError f).toOption = outcome.toOption := by
  cases outcome <;> rfl

end Report

/-! Readers of lists read every item, or else nothing. -/

section Lists

variable {α β : Type} {f : α → Option β} {items : List α} {values : List β}

theorem mapM_eq_some_iff :
    items.mapM f = some values ↔ List.Forall₂ (fun item value => f item = some value) items values := by
  induction items generalizing values with
  | nil => simp [eq_comm]
  | cons item items ih =>
    rw [List.forall₂_cons_left_iff]
    simp only [List.mapM_cons, Option.bind_eq_bind, Option.bind_eq_some_iff, ih, Option.pure_def,
      Option.some.injEq]
    constructor
    · rintro ⟨value, hvalue, rest, hrest, rfl⟩
      exact ⟨value, rest, hvalue, hrest, rfl⟩
    · rintro ⟨value, rest, hvalue, hrest, rfl⟩
      exact ⟨value, hvalue, rest, hrest, rfl⟩

theorem mem_of_mapM_eq_some (h : items.mapM f = some values) (value : β) :
    value ∈ values ↔ ∃ item ∈ items, f item = some value := by
  rw [mapM_eq_some_iff] at h
  induction h with
  | nil => simp
  | cons hvalue _ ih =>
    simp only [List.mem_cons, exists_eq_or_imp, hvalue, Option.some.injEq, ih]
    rw [eq_comm]

theorem isSome_mapM_iff : (items.mapM f).isSome ↔ ∀ item ∈ items, (f item).isSome := by
  induction items with
  | nil => simp
  | cons item items ih =>
    simp only [List.mapM_cons, List.forall_mem_cons, ← ih]
    cases f item with
    | none => simp
    | some value => cases items.mapM f <;> simp

theorem mapM_map_eq_pure {m : Type → Type} [Monad m] [LawfulMonad m] {γ : Type} (write : α → β)
    (read : β → m γ) {value : α → γ} (h : ∀ item, read (write item) = pure (value item))
    (items : List α) : (items.map write).mapM read = pure (items.map value) := by
  have hread : read ∘ write = fun item => pure (value item) := funext h
  rw [List.mapM_map, hread, List.mapM_pure]

theorem forall_mem_iff_of_forall₂ {R : α → β → Prop} {p : α → Prop} {q : β → Prop}
    (hall : List.Forall₂ R items values) (h : ∀ item value, R item value → (p item ↔ q value)) :
    (∀ item ∈ items, p item) ↔ ∀ value ∈ values, q value := by
  induction hall with
  | nil => simp
  | cons hvalue _ ih => rw [List.forall_mem_cons, List.forall_mem_cons, h _ _ hvalue, ih]

theorem forall_mem_of_forall₂ {R : α → β → Prop} {q : β → Prop}
    (hall : List.Forall₂ R items values) (h : ∀ item value, R item value → q value) :
    ∀ value ∈ values, q value := by
  induction hall with
  | nil => simp
  | cons hvalue _ ih => exact List.forall_mem_cons.mpr ⟨h _ _ hvalue, ih⟩

end Lists

end GpuRules.Config
