import GpuRules.Criterion.Version
import GpuRules.Platform

/-!
Criteria on the operating system and its release.
-/

namespace GpuRules

structure OsCriterion where
  os : OsType
  release : VersionCriterion
  deriving BEq, Repr

namespace OsCriterion

def parse (os op number number2 : String) : Except CriterionError OsCriterion :=
  match OsType.ofToken? os with
  | none => .error (.unknownOs os)
  | some system => (VersionCriterion.parse op "" number number2).map (OsCriterion.mk system)

/-- A release that is not known passes only a test that admits every release. -/
def contains (criterion : OsCriterion) (os : OsType) (release : Option Version) : Bool :=
  (criterion.os == os || criterion.os == .any) &&
    match release with
    | some version => criterion.release.contains version
    | none => criterion.release.op == .any

end OsCriterion

end GpuRules
