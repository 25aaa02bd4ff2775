import GpuRules.Binary.Shortest
import GpuRules.Json
import GpuRules.Json.Quoted

/-!
JSON trees as compact text, without blanks.
-/

namespace GpuRules.Json

/-- Floating-point numbers are written out from 0.00001 up to below ten to the sixteenth, and with
a power of ten outside. -/
def numberLayout : DecimalLayout := ⟨-5, 15⟩

mutual

def write : Json → List Char
  | .null => ['n', 'u', 'l', 'l']
  | .bool true => ['t', 'r', 'u', 'e']
  | .bool false => ['f', 'a', 'l', 's', 'e']
  | .integer value => (toString value).toList
  | .number value => numberLayout.shortest value
  | .string text => Quoted.write text
  | .array items => '[' :: writeItems items ++ [']']
  | .object members => '\x7b' :: writeMembers members ++ ['\x7d']

def writeItems : List Json → List Char
  | [] => []
  | [item] => write item
  | item :: items => write item ++ ',' :: writeItems items

def writeMembers : List (String × Json) → List Char
  | [] => []
  | [(key, value)] => Quoted.write key ++ ':' :: write value
  | (key, value) :: members =>
    Quoted.write key ++ ':' :: write value ++ ',' :: writeMembers members

end

def compact (json : Json) : String :=
  String.ofList json.write

end GpuRules.Json
