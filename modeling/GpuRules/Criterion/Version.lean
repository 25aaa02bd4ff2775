import GpuRules.Comparison
import GpuRules.Criterion.Error
import GpuRules.Version.Reader

/-!
Criteria on versions and, with the year first, on dates. `=` looks at as many components as its
bound has; the other operators follow the order of versions, and `between` takes in both bounds.
-/

namespace GpuRules

inductive VersionStyle where
  | numerical
  /-- Every digit after the first dot is a component. -/
  | lexical
  deriving DecidableEq, Repr

namespace VersionStyle

def token : VersionStyle → String
  | .numerical => "numerical"
  | .lexical => "lexical"

def ofToken? : String → Option VersionStyle
  | "" => some .numerical
  | "numerical" => some .numerical
  | "lexical" => some .lexical
  | _ => none

@[simp] theorem ofToken?_token (style : VersionStyle) : ofToken? style.token = some style := by
  cases style <;> rfl

def read : VersionStyle → String → Except ParseError Version
  | .numerical, text => Version.parse text
  | .lexical, text => Version.parse (Version.ofLexical text)

end VersionStyle

structure VersionCriterion where
  style : VersionStyle
  test : Comparison Version
  deriving BEq, Repr

namespace VersionCriterion

def any : VersionCriterion := ⟨.numerical, .any⟩

def op (criterion : VersionCriterion) : Operator := criterion.test.op

def build (op style number number2 : String)
    (read : VersionStyle → String → Except ParseError Version) :
    Except CriterionError VersionCriterion :=
  match Operator.ofToken? op with
  | none => .error (.unknownOperator op)
  | some operator =>
    match VersionStyle.ofToken? style with
    | none => .error (.unknownStyle style)
    | some style =>
      match Comparison.ofBounds operator (read style number) (read style number2) with
      | .error error => .error (.malformed error)
      | .ok test => .ok ⟨style, test⟩

def parse (op style number number2 : String) : Except CriterionError VersionCriterion :=
  build op style number number2 VersionStyle.read

/-- A criterion whose bounds are dates `mm-dd-yyyy`. -/
def parseDate (op date date2 : String) : Except CriterionError VersionCriterion :=
  build op "" date date2 fun _ => Version.ofDate

def contains (criterion : VersionCriterion) (candidate : Version) : Bool :=
  match criterion.test with
  | .any => true
  | .eq bound => bound.begins candidate
  | .lt bound => (compare candidate bound).isLT
  | .le bound => (compare candidate bound).isLE
  | .gt bound => (compare candidate bound).isGT
  | .ge bound => (compare candidate bound).isGE
  | .between low high => (compare candidate low).isGE && (compare candidate high).isLE

end VersionCriterion

end GpuRules
