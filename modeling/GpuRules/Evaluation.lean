import GpuRules.Rule

/-!
Evaluation of rules against a hardware snapshot: which rules apply, which features they disable, and
why. A disabled rule is listed when it applies, but it disables nothing.
-/

namespace GpuRules

structure ActiveRule where
  id : UInt32
  disabled : Bool
  features : FeatureMask
  description : String
  crBugs : List Int64
  webkitBugs : List Int64
  deriving DecidableEq, Repr

def Rule.active (rule : Rule) : ActiveRule where
  id := rule.id
  disabled := rule.disabled
  features := rule.features
  description := rule.description
  crBugs := rule.crBugs
  webkitBugs := rule.webkitBugs

structure Reason where
  description : String
  crBugs : List Int64
  webkitBugs : List Int64
  deriving DecidableEq, Repr

def ActiveRule.reason (rule : ActiveRule) : Reason :=
  ⟨rule.description, rule.crBugs, rule.webkitBugs⟩

structure Evaluation where
  features : FeatureMask
  active : List ActiveRule
  deriving DecidableEq, Repr

/-- The rules that apply in their order, and the features of those that are not disabled. -/
def evaluate (rules : List Rule) (hardware : Hardware) : Evaluation :=
  let active := (rules.filter (·.applies hardware)).map Rule.active
  ⟨.union ((active.filter (!·.disabled)).map ActiveRule.features), active⟩

namespace Evaluation

def activeIds (evaluation : Evaluation) : List UInt32 :=
  evaluation.active.map ActiveRule.id

def idsTouching (evaluation : Evaluation) (features : FeatureMask) (disabled : Bool) :
    List UInt32 :=
  (evaluation.active.filter fun rule =>
    rule.features.intersects features && rule.disabled == disabled).map ActiveRule.id

def reasons (evaluation : Evaluation) : List Reason :=
  (evaluation.active.filter (!·.disabled)).map ActiveRule.reason

def text (evaluation : Evaluation) : String :=
  let rules := evaluation.active.map fun rule =>
    toString rule.id ++ if rule.disabled then " (disabled)" else ""
  "features: " ++ evaluation.features.text ++ ", active: [" ++ ", ".intercalate rules ++ "]"

end Evaluation

end GpuRules
