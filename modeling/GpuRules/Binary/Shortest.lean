import GpuRules.Binary.Rounding

/-!
The shortest decimal text of a binary number: the fewest digits that read back as the number, and of
several such the nearest.
-/

namespace GpuRules

/-- A positive decimal number `digits * 10 ^ exponent`. -/
structure Decimal where
  digits : Nat
  exponent : Int
  deriving DecidableEq, Repr

namespace Decimal

def power : Int → Nat × Nat
  | .ofNat n => (Nat.pow 10 n, 1)
  | .negSucc n => (1, Nat.pow 10 (n + 1))

/-- Of the two points of the grid `10 ^ exponent` around the number, the nearest that reads back
as the number. -/
def onGrid? (format : BinaryFormat) (units : Nat) (exponent : Int) : Option Nat :=
  let (up, down) := power exponent
  let num := units * down
  let den := format.one * up
  let below := num / den
  let readsBack (digits : Nat) : Bool := format.round false (digits * up) down = .finite false units
  let nearest := roundDiv num den
  let other := if nearest = below then below + 1 else below
  if readsBack nearest then some nearest
  else if readsBack other then some other
  else none

/-- The point of the coarsest grid that has one, going down from `10 ^ top` by at most `steps`
grids. -/
def onCoarsest (format : BinaryFormat) (units : Nat) (top : Int) : Nat → Decimal
  | 0 => ⟨units, -format.scale⟩
  | steps + 1 =>
    match onGrid? format units top with
    | some digits => ⟨digits, top⟩
    | none => onCoarsest format units (top - 1) steps

def shortest (format : BinaryFormat) (units : Nat) : Decimal :=
  onCoarsest format units (format.range - format.scale) (format.range + format.scale)

end Decimal

/-- Which decimal numbers are written in positional notation. All others are written with a power
of ten. -/
structure DecimalLayout where
  /-- The least power of ten that the first digit may stand for, -/
  lowest : Int
  /-- and the largest. -/
  highest : Int
  deriving DecidableEq, Repr

namespace DecimalLayout

def zeros (count : Int) : List Char := List.replicate count.toNat '0'

def positional (digits : List Char) (exponent leading : Int) : List Char :=
  if leading < 0 then '0' :: '.' :: zeros (-leading - 1) ++ digits
  else if exponent < 0 then
    let whole := leading.toNat + 1
    digits.take whole ++ '.' :: digits.drop whole
  else digits ++ zeros exponent ++ ['.', '0']

/-- Scientific notation has a point only if there are several digits. Its exponent always has a
sign and never a zero in front. -/
def scientific (digits : List Char) (leading : Int) : List Char :=
  let mantissa :=
    match digits with
    | first :: second :: rest => first :: '.' :: second :: rest
    | _ => digits
  mantissa ++ 'e' :: (if leading < 0 then '-' else '+') :: Nat.toDigits 10 leading.natAbs

def render (layout : DecimalLayout) (decimal : Decimal) : List Char :=
  let digits := Nat.toDigits 10 decimal.digits
  let leading := decimal.exponent + digits.length - 1
  if layout.lowest ≤ leading ∧ leading ≤ layout.highest then
    positional digits decimal.exponent leading
  else scientific digits leading

def shortest (layout : DecimalLayout) {format : BinaryFormat} : Binary format → List Char
  | .nan => ['n', 'a', 'n']
  | .infinity negative => if negative then ['-', 'i', 'n', 'f'] else ['i', 'n', 'f']
  | .finite negative units =>
    let magnitude :=
      if units = 0 then ['0', '.', '0'] else layout.render (Decimal.shortest format units)
    if negative then '-' :: magnitude else magnitude

end DecimalLayout

end GpuRules
