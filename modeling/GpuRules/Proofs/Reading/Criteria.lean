import GpuRules.Config.Criteria
import Mathlib.Data.List.Basic

/-! What the criteria of a configuration object say, key by key. A key that is there has to hold a
value of its kind, from which a criterion can be built that the hardware satisfies; a key that is
not there says nothing. -/

namespace GpuRules.Config

open Json (Members)

def Spells {α β : Type} (cast : Json → Option β) (build : β → Except CriterionError α)
    (admitted : α → Prop) (json : Json) : Prop :=
  ∃ payload criterion, cast json = some payload ∧ build payload = .ok criterion ∧ admitted criterion

/-- A release that is not known passes only the test that asks nothing. -/
def ReleasePasses (test : VersionCriterion) : Option Version → Prop
  | some version => test.contains version
  | none => test.op = .any

theorem OsCriterion.contains_iff (criterion : OsCriterion) (os : OsType)
    (release : Option Version) :
    criterion.contains os release ↔
      (criterion.os = os ∨ criterion.os = .any) ∧ ReleasePasses criterion.release release := by
  unfold OsCriterion.contains ReleasePasses
  cases release <;> simp

end GpuRules.Config
