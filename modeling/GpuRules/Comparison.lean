/-!
Comparisons with one or two bounds, and the operators that name them.
-/

namespace GpuRules

inductive Operator where
  | eq | lt | le | gt | ge | any | between
  deriving DecidableEq, Repr

namespace Operator

def token : Operator → String
  | .eq => "="
  | .lt => "<"
  | .le => "<="
  | .gt => ">"
  | .ge => ">="
  | .any => "any"
  | .between => "between"

def ofToken? : String → Option Operator
  | "=" => some .eq
  | "<" => some .lt
  | "<=" => some .le
  | ">" => some .gt
  | ">=" => some .ge
  | "any" => some .any
  | "between" => some .between
  | _ => none

@[simp] theorem ofToken?_token (op : Operator) : ofToken? op.token = some op := by
  cases op <;> rfl

end Operator

inductive Comparison (α : Type) where
  | any
  | eq (bound : α)
  | lt (bound : α)
  | le (bound : α)
  | gt (bound : α)
  | ge (bound : α)
  | between (low high : α)
  deriving BEq, Repr

namespace Comparison

variable {α ε : Type}

def op : Comparison α → Operator
  | .any => .any
  | .eq _ => .eq
  | .lt _ => .lt
  | .le _ => .le
  | .gt _ => .gt
  | .ge _ => .ge
  | .between _ _ => .between

/-- A comparison from what was read for its bounds. A bound that the operator does not have may be
anything, even unreadable. -/
def ofBounds (op : Operator) (first second : Except ε α) : Except ε (Comparison α) :=
  match op with
  | .any => .ok .any
  | .eq => first.map .eq
  | .lt => first.map .lt
  | .le => first.map .le
  | .gt => first.map .gt
  | .ge => first.map .ge
  | .between => do
    let low ← first
    return .between low (← second)

end Comparison

end GpuRules
