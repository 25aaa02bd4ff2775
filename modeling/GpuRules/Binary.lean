/-!
Binary floating-point numbers of a given format, as data. A finite number is a whole number of the
format's smallest units, with a sign that zero has too. Comparison follows IEEE 754: the two zeros
are equal, and NaN is neither below, above nor equal to anything.
-/

namespace GpuRules

/-- Numbers have `precision` significant bits, are multiples of the unit `2 ^ -scale`, and stay
below `2 ^ range` units. -/
structure BinaryFormat where
  precision : Nat
  scale : Nat
  range : Nat
  deriving DecidableEq, Repr

namespace BinaryFormat

def single : BinaryFormat := ⟨24, 149, 277⟩
def double : BinaryFormat := ⟨53, 1074, 2098⟩

def one (format : BinaryFormat) : Nat := Nat.pow 2 format.scale

/-- The first magnitude in units that is beyond the format. -/
def limit (format : BinaryFormat) : Nat := Nat.pow 2 format.range

end BinaryFormat

inductive Binary (format : BinaryFormat) where
  | nan
  | infinity (negative : Bool)
  | finite (negative : Bool) (units : Nat)
  deriving DecidableEq, Repr

namespace Binary

variable {format : BinaryFormat}

instance : Inhabited (Binary format) := ⟨.finite false 0⟩

def isNaN : Binary format → Bool
  | .nan => true
  | _ => false

def isZero : Binary format → Bool
  | .finite _ units => units == 0
  | _ => false

def signedUnits (negative : Bool) (units : Nat) : Int :=
  if negative then -units else units

def compare? : Binary format → Binary format → Option Ordering
  | .nan, _ => none
  | _, .nan => none
  | .infinity a, .infinity b => some (if a == b then .eq else if a then .lt else .gt)
  | .infinity a, .finite _ _ => some (if a then .lt else .gt)
  | .finite _ _, .infinity b => some (if b then .gt else .lt)
  | .finite a m, .finite b n => some (compare (signedUnits a m) (signedUnits b n))

def lt (x y : Binary format) : Bool := compare? x y == some .lt
def eq (x y : Binary format) : Bool := compare? x y == some .eq
def le (x y : Binary format) : Bool := x.lt y || x.eq y

/-- Equality as numbers: NaN differs from itself and the two zeros agree. -/
instance : BEq (Binary format) := ⟨eq⟩

/-- The lower of two numbers, or the one that is a number at all. -/
def lower (x y : Binary format) : Binary format :=
  if x.isNaN then y else if y.lt x then y else x

def higher (x y : Binary format) : Binary format :=
  if x.isNaN then y else if x.lt y then y else x

end Binary

end GpuRules
