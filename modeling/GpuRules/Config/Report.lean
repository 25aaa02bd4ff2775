import GpuRules.Event

/-!
Reading with diagnostics: a reading reports events on its way and may fail. What was reported before
a failure stays reported.
-/

namespace GpuRules.Config

structure Report (ε α : Type) where
  events : List Event
  outcome : Except ε α

namespace Report

variable {ε ε' α β : Type}

def pure (value : α) : Report ε α := ⟨[], .ok value⟩

def bind (first : Report ε α) (next : α → Report ε β) : Report ε β :=
  match first.outcome with
  | .ok value => ⟨first.events ++ (next value).events, (next value).outcome⟩
  | .error error => ⟨first.events, .error error⟩

instance : Monad (Report ε) where
  pure := pure
  bind := bind

def fail (error : ε) : Report ε α := ⟨[], .error error⟩

def note (events : List Event) : Report ε Unit := ⟨events, .ok ()⟩

def ofExcept (outcome : Except ε α) : Report ε α := ⟨[], outcome⟩

def require (error : ε) : Option α → Report ε α
  | some value => pure value
  | none => fail error

def mapError (f : ε → ε') (report : Report ε α) : Report ε' α :=
  ⟨report.events, report.outcome.mapError f⟩

@[simp] theorem outcome_bind (first : Report ε α) (next : α → Report ε β) :
    (first >>= next).outcome = first.outcome.bind fun value => (next value).outcome := by
  cases first with
  | mk events outcome => cases outcome <;> rfl

/-- A failure keeps the events of what comes after it from being reported. -/
@[simp] theorem events_bind (first : Report ε α) (next : α → Report ε β) :
    (first >>= next).events =
      first.events ++ (first.outcome.toOption.map fun value => (next value).events).getD [] := by
  cases first with
  | mk events outcome => cases outcome <;> simp [Bind.bind, bind, Except.toOption]

@[simp] theorem pure_bind (value : α) (next : α → Report ε β) :
    (Pure.pure value >>= next) = next value := by
  simp [Bind.bind, bind, Pure.pure, pure]

@[simp] theorem fail_bind (error : ε) (next : α → Report ε β) :
    (fail error >>= next) = fail error := rfl

end Report

end GpuRules.Config
