import GpuRules.Binary.Rounding
import GpuRules.Text.Digits

/-!
Decimal texts of binary numbers: an optional sign, then `inf`, `infinity` or `nan` in any case, or
digits with an optional point and an optional power of ten. Each stands for the nearest number.
-/

namespace GpuRules

open Text (numeral)

/-- The exact number `significand * 10 ^ exponent`, with a sign. -/
structure Numeral where
  negative : Bool
  significand : Nat
  exponent : Int
  deriving DecidableEq, Repr

namespace Numeral

/-- The nearest number of a format. Powers of ten that lie beyond the format on either side are
decided without being computed. -/
def round (format : BinaryFormat) (numeral : Numeral) : Binary format :=
  let size : Int := (Nat.toDigits 10 numeral.significand).length + numeral.exponent
  if numeral.significand = 0 then .finite numeral.negative 0
  else if format.range < size then .infinity numeral.negative
  else if size < -format.scale - 1 then .finite numeral.negative 0
  else
    match numeral.exponent with
    | .ofNat power => format.round numeral.negative (numeral.significand * Nat.pow 10 power) 1
    | .negSucc power => format.round numeral.negative numeral.significand (Nat.pow 10 (power + 1))

def exponent? (text : List Char) : Option Int :=
  let (negative, digits) :=
    match text with
    | '-' :: rest => (true, rest)
    | '+' :: rest => (false, rest)
    | _ => (false, text)
  if digits = [] ∨ ¬digits.all Char.isDigit then none
  else some (if negative then -(numeral 10 digits) else numeral 10 digits)

/-- Digits with an optional point among them, of which there is at least one, and an optional
power of ten. -/
def read? (negative : Bool) (text : List Char) : Option Numeral :=
  let whole := text.takeWhile Char.isDigit
  let (fraction, rest) :=
    match text.dropWhile Char.isDigit with
    | '.' :: rest => (rest.takeWhile Char.isDigit, rest.dropWhile Char.isDigit)
    | rest => ([], rest)
  let shifted (exponent : Int) : Numeral :=
    ⟨negative, numeral 10 (whole ++ fraction), exponent - fraction.length⟩
  if whole = [] ∧ fraction = [] then none
  else
    match rest with
    | [] => some (shifted 0)
    | mark :: rest => if mark.toLower = 'e' then (exponent? rest).map shifted else none

end Numeral

namespace Binary

def ofUnsigned? (format : BinaryFormat) (negative : Bool) (text : List Char) :
    Option (Binary format) :=
  let word := text.map Char.toLower
  if word = ['i', 'n', 'f'] ∨ word = ['i', 'n', 'f', 'i', 'n', 'i', 't', 'y'] then
    some (.infinity negative)
  else if word = ['n', 'a', 'n'] then some .nan
  else (Numeral.read? negative text).map (Numeral.round format)

def ofText? (format : BinaryFormat) (text : List Char) : Option (Binary format) :=
  match text with
  | '-' :: rest => ofUnsigned? format true rest
  | '+' :: rest => ofUnsigned? format false rest
  | _ => ofUnsigned? format false text

end Binary

end GpuRules
