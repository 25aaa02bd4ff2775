import GpuRules.Criterion.Error
import GpuRules.Text.Case

/-!
Criteria on texts, which disregard the case of ASCII letters.
-/

namespace GpuRules

inductive TextOperator where
  | eq | contains | beginWith | endWith
  deriving DecidableEq, Repr

namespace TextOperator

def token : TextOperator → String
  | .eq => "="
  | .contains => "contains"
  | .beginWith => "beginwith"
  | .endWith => "endwith"

def ofToken? : String → Option TextOperator
  | "=" => some .eq
  | "contains" => some .contains
  | "beginwith" => some .beginWith
  | "endwith" => some .endWith
  | _ => none

@[simp] theorem ofToken?_token (op : TextOperator) : ofToken? op.token = some op := by
  cases op <;> rfl

end TextOperator

/-- The value is kept with its case folded. -/
structure TextCriterion where
  op : TextOperator
  value : String
  deriving DecidableEq, Repr

namespace TextCriterion

open Text (foldCase occursIn)

def ofValue (op : TextOperator) (value : String) : TextCriterion :=
  ⟨op, String.ofList (foldCase value.toList)⟩

def parse (op value : String) : Except CriterionError TextCriterion :=
  match TextOperator.ofToken? op with
  | none => .error (.unknownOperator op)
  | some operator => .ok (ofValue operator value)

def contains (criterion : TextCriterion) (candidate : String) : Bool :=
  let value := criterion.value.toList
  let text := foldCase candidate.toList
  match criterion.op with
  | .eq => text == value
  | .contains => occursIn value text
  | .beginWith => value.isPrefixOf text
  | .endWith => value.isSuffixOf text

end TextCriterion

end GpuRules
