import GpuRules.Binary

/-!
Rounding of exact quotients to a binary format: to the nearest number, and halfway to the one with
an even last bit. What rounds beyond the range becomes an infinity.
-/

namespace GpuRules

/-- The whole number nearest to a quotient, the even one of two at equal distance. -/
def roundDiv (num den : Nat) : Nat :=
  let whole := num / den
  let twice := 2 * (num % den)
  if twice < den ∨ (twice = den ∧ whole % 2 = 0) then whole else whole + 1

namespace BinaryFormat

def round (format : BinaryFormat) (negative : Bool) (num den : Nat) : Binary format :=
  let scaled := num * format.one
  let step := Nat.pow 2 ((scaled / den).log2 + 1 - format.precision)
  let units := roundDiv scaled (den * step) * step
  if units < format.limit then .finite negative units else .infinity negative

def unitsOf (format : BinaryFormat) (value : Nat) : Nat :=
  match format.round false value 1 with
  | .finite _ units => units
  | _ => 0

end BinaryFormat

def Binary.convert {format : BinaryFormat} (target : BinaryFormat) : Binary format → Binary target
  | .nan => .nan
  | .infinity negative => .infinity negative
  | .finite negative units => target.round negative units format.one

end GpuRules
