import GpuRules.ParseError
import GpuRules.Text.Digits

/-!
PCI vendor and device ids, written in hexadecimal with or without `0x`.
-/

namespace GpuRules

abbrev PciId := UInt32

namespace PciId

open Text (isHexDigit numeral)

def unmarked : List Char → List Char
  | '0' :: 'x' :: digits => digits
  | '0' :: 'X' :: digits => digits
  | digits => digits

/-- A run of hexadecimal digits of value below `2 ^ 32` that reaches to the end. -/
def read (text : List Char) : Except ParseError.Reason PciId :=
  let body := unmarked text
  let run := body.takeWhile isHexDigit
  let start := text.length - body.length
  if run = [] then .error (.missing start .hexId)
  else if UInt32.size ≤ numeral 16 run then .error (.tooLarge start .hexId)
  else if run.length < body.length then .error (.trailing (start + run.length))
  else .ok (UInt32.ofNat (numeral 16 run))

def parse (text : String) : Except ParseError PciId :=
  (read text.toList).mapError (ParseError.mk text)

end PciId

end GpuRules
