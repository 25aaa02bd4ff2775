import GpuRules.Binary.Numeral
import GpuRules.Comparison
import GpuRules.Criterion.Error
import GpuRules.Text.Blank

/-!
Criteria on performance scores. A score is a number of single precision, and zero if the GPU has not
been measured.
-/

namespace GpuRules

abbrev Score := Binary .single

namespace Score

/-- The score that a decimal text stands for, rounded to double precision on the way. -/
def ofText? (text : List Char) : Option Score :=
  (Binary.ofText? .double text).map (Binary.convert .single)

def parse (text : String) : Except CriterionError Score :=
  match ofText? (Text.trim text.toList) with
  | none => .error (.invalidNumber text)
  | some score => .ok score

end Score

/-- Only the bounds that the operator has are kept. Two criteria that were made with different numbers
for a bound that their operator does not have are the same criterion, and so equal. -/
structure ScoreCriterion where
  test : Comparison Score
  deriving BEq, Repr

namespace ScoreCriterion

def parse (op value value2 : String) : Except CriterionError ScoreCriterion :=
  match Operator.ofToken? op with
  | none => .error (.unknownOperator op)
  | some operator =>
    (Comparison.ofBounds operator (Score.parse value) (Score.parse value2)).map ScoreCriterion.mk

/-- The bounds of `between` may stand in either order. -/
def contains (criterion : ScoreCriterion) (score : Score) : Bool :=
  match criterion.test with
  | .any => true
  | .eq bound => score.eq bound
  | .lt bound => score.lt bound
  | .le bound => score.le bound
  | .gt bound => bound.lt score
  | .ge bound => bound.le score
  | .between first second =>
    (first.lower second).le score && score.le (first.higher second)

/-- A score that was not measured satisfies no criterion. -/
def admits (criterion : ScoreCriterion) (score : Score) : Bool :=
  !score.isZero && criterion.contains score

end ScoreCriterion

end GpuRules
