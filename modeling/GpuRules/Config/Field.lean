import GpuRules.Criterion.Error
import GpuRules.Slot

/-!
What a configuration object has at the key of a criterion.
-/

namespace GpuRules.Config

inductive Field (α : Type) where
  | absent
  | wrongType (expected : Json.Kind)
  | rejected (error : CriterionError)
  | built (value : α)

namespace Field

variable {α β : Type}

def read (expected : Json.Kind) (cast : Json → Option β) (build : β → Except CriterionError α) :
    Option Json → Field α
  | none => absent
  | some json =>
    match cast json with
    | none => wrongType expected
    | some payload =>
      match build payload with
      | .ok value => built value
      | .error error => rejected error

def value? : Field α → Option α
  | built value => some value
  | _ => none

def error? (slot : Slot) : Field α → Option CriterionError
  | wrongType expected => some (.wrongType slot.key expected)
  | rejected error => some error
  | _ => none

/-- Whether there is a value of the expected kind, be it good or not. -/
def isRecognised : Field α → Bool
  | rejected _ | built _ => true
  | _ => false

end Field

end GpuRules.Config
