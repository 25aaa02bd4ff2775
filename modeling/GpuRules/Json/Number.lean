import GpuRules.Binary.Rounding
import GpuRules.Json
import GpuRules.Text.Digits

/-!
JSON numbers. A number written without fraction and exponent that fits 64 bits, signed or unsigned,
is whole. Any other is a floating-point number with a significand of at most 64 bits: digits beyond
that only count for its power of ten, and significand and power are each rounded before one is
multiplied or divided by the other. A number beyond the floating-point range is refused.
-/

namespace GpuRules.Json

open Text (digitValue numeral)

/-- The digits of a number as written. A number has a fraction only if it has digits in it. -/
structure Written where
  negative : Bool
  whole : List Char
  fraction : List Char
  exponent : Option Int
  deriving DecidableEq, Repr

namespace Written

def digits? (text : List Char) : Option (List Char × List Char) :=
  let run := text.takeWhile Char.isDigit
  if run = [] then none else some (run, text.dropWhile Char.isDigit)

theorem length_of_digits? {text run left : List Char} (h : digits? text = some (run, left)) :
    left.length < text.length := by
  simp only [digits?, Option.ite_none_left_eq_some, Option.some.injEq, Prod.mk.injEq] at h
  obtain ⟨hrun, _, rfl⟩ := h
  have hsplit := congrArg List.length
    (List.takeWhile_append_dropWhile (p := Char.isDigit) (l := text))
  have hpos := List.length_pos_iff.mpr hrun
  rw [List.length_append] at hsplit
  omega

/-- A whole part has no zero in front of other digits. -/
def whole? (text : List Char) : Option (List Char × List Char) :=
  match digits? text with
  | some ('0' :: _ :: _, _) => none
  | part => part

def fraction? : List Char → Option (List Char × List Char)
  | '.' :: rest => digits? rest
  | text => some ([], text)

def sign (text : List Char) : Bool × List Char :=
  match text with
  | '-' :: rest => (true, rest)
  | '+' :: rest => (false, rest)
  | _ => (false, text)

def exponent? (text : List Char) : Option (Option Int × List Char) :=
  match text with
  | [] => some (none, [])
  | mark :: rest =>
    if mark = 'e' ∨ mark = 'E' then
      let (negative, digits) := sign rest
      (digits? digits).map fun (run, left) =>
        (some (if negative then -(numeral 10 run) else numeral 10 run), left)
    else some (none, text)

def unsigned? (negative : Bool) (text : List Char) : Option (Written × List Char) := do
  let (whole, rest) ← whole? text
  let (fraction, rest) ← fraction? rest
  let (exponent, left) ← exponent? rest
  return (⟨negative, whole, fraction, exponent⟩, left)

def read? : List Char → Option (Written × List Char)
  | '-' :: rest => unsigned? true rest
  | text => unsigned? false text

theorem length_of_whole? {text run left : List Char} (h : whole? text = some (run, left)) :
    left.length < text.length := by
  unfold whole? at h
  split at h
  · simp at h
  · exact length_of_digits? h

theorem length_of_fraction? {text run left : List Char} (h : fraction? text = some (run, left)) :
    left.length ≤ text.length := by
  unfold fraction? at h
  split at h
  · have := length_of_digits? h
    simp only [List.length_cons]
    omega
  · simp_all

theorem length_of_sign (text : List Char) : (sign text).2.length ≤ text.length := by
  unfold sign
  split <;> simp only [List.length_cons] <;> omega

theorem length_of_exponent? {text left : List Char} {exponent : Option Int}
    (h : exponent? text = some (exponent, left)) : left.length ≤ text.length := by
  unfold exponent? at h
  split at h
  · simp_all
  · next mark rest =>
    split at h
    · obtain ⟨⟨run, left'⟩, hdigits, heq⟩ := Option.map_eq_some_iff.mp h
      obtain ⟨_, rfl⟩ := Prod.mk.inj heq
      exact Nat.le_succ_of_le (Nat.le_of_lt
        (Nat.lt_of_lt_of_le (length_of_digits? hdigits) (length_of_sign rest)))
    · simp_all

theorem length_of_unsigned? {text left : List Char} {negative : Bool} {written : Written}
    (h : unsigned? negative text = some (written, left)) : left.length < text.length := by
  simp only [unsigned?, Option.bind_eq_bind, Option.bind_eq_some_iff, Option.pure_def,
    Option.some.injEq, Prod.mk.injEq] at h
  obtain ⟨⟨_, rest⟩, hwhole, ⟨_, rest'⟩, hfraction, ⟨_, left'⟩, hexponent, _, rfl⟩ := h
  have h₁ := length_of_whole? hwhole
  have h₂ := length_of_fraction? hfraction
  have h₃ := length_of_exponent? hexponent
  exact Nat.lt_of_le_of_lt (Nat.le_trans h₃ h₂) h₁

theorem length_of_read? {text left : List Char} {written : Written}
    (h : read? text = some (written, left)) : left.length < text.length := by
  unfold read? at h
  split at h
  · have := length_of_unsigned? h
    simp only [List.length_cons]
    omega
  · exact length_of_unsigned? h

/-- Adds digits to a significand for as long as it fits 64 bits. Gives also the digits from the
first one that did not fit. -/
def absorb (significand : Nat) : List Char → Nat × List Char
  | [] => (significand, [])
  | digit :: rest =>
    let next := significand * 10 + digitValue digit
    if next < UInt64.size then absorb next rest else (significand, digit :: rest)

def dividedBy (units power : Nat) : Nat :=
  match BinaryFormat.double.round false units (BinaryFormat.double.unitsOf (Nat.pow 10 power)) with
  | .finite _ quotient => quotient
  | _ => 0

/-- A power past the range is divided out in steps, until nothing is left of the magnitude. -/
def divideByPower (units power : Nat) : Nat :=
  if power ≤ 308 then dividedBy units power
  else
    let rest := dividedBy units 308
    if rest = 0 then 0 else divideByPower rest (power - 308)
termination_by power

/-- A significand times a power of ten, both rounded first. -/
def scaled? (negative : Bool) (significand : Nat) (exponent : Int) : Option (Binary .double) :=
  let format := BinaryFormat.double
  match exponent with
  | .ofNat power =>
    if significand = 0 then some (.finite negative 0)
    else if 308 < power then none
    else
      match format.round negative (format.unitsOf significand * format.unitsOf (Nat.pow 10 power))
          (format.one * format.one) with
      | .finite negative units => some (.finite negative units)
      | _ => none
  | .negSucc power =>
    some (.finite negative (divideByPower (format.unitsOf significand) (power + 1)))

/-- The value of a number. Negative zero is not whole. -/
def value? (written : Written) : Option Json :=
  let (significand, beyond) := absorb 0 written.whole
  if written.fraction = [] ∧ written.exponent = none ∧ beyond = [] ∧
      (written.negative → 0 < significand ∧ significand ≤ 0x8000000000000000) then
    some (.integer (if written.negative then -significand else significand))
  else
    let (significand, lost) := absorb significand written.fraction
    let exponent : Int :=
      beyond.length - (written.fraction.length - lost.length) + written.exponent.getD 0
    (scaled? written.negative significand exponent).map Json.number

end Written

def readNumber? (text : List Char) : Option (Json × List Char) := do
  let (written, left) ← Written.read? text
  return (← written.value?, left)

theorem length_of_readNumber? {text left : List Char} {value : Json}
    (h : readNumber? text = some (value, left)) : left.length < text.length := by
  simp only [readNumber?, Option.bind_eq_bind, Option.bind_eq_some_iff, Option.pure_def,
    Option.some.injEq, Prod.mk.injEq] at h
  obtain ⟨⟨_, left'⟩, hread, _, _, _, rfl⟩ := h
  exact Written.length_of_read? hread

end GpuRules.Json
