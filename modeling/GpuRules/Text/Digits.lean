/-!
ASCII digits, and the numbers that runs of them spell.
-/

namespace GpuRules.Text

def isHexDigit (c : Char) : Bool :=
  c.isDigit || ('a' ≤ c && c ≤ 'f') || ('A' ≤ c && c ≤ 'F')

/-- The worth of a hexadecimal digit of either case. Any other character is worth nothing. -/
def digitValue (c : Char) : Nat :=
  if c.isDigit then c.toNat - '0'.toNat
  else if 'a' ≤ c ∧ c ≤ 'f' then c.toNat - 'a'.toNat + 10
  else if 'A' ≤ c ∧ c ≤ 'F' then c.toNat - 'A'.toNat + 10
  else 0

/-- The number that digits spell in the given base, most significant digit first. -/
def numeral (base : Nat) (digits : List Char) : Nat :=
  digits.foldl (fun value digit => value * base + digitValue digit) 0

@[simp] theorem numeral_nil (base : Nat) : numeral base [] = 0 := rfl

@[simp] theorem numeral_concat (base : Nat) (digits : List Char) (digit : Char) :
    numeral base (digits ++ [digit]) = numeral base digits * base + digitValue digit := by
  simp [numeral]

end GpuRules.Text
