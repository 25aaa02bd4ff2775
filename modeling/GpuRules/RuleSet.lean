import GpuRules.Evaluation
import GpuRules.LoadError

/-!
Rule sets: rules in order with distinct ids, and what is known of the whole they were taken from.
-/

namespace GpuRules

structure SchemaVersion where
  major : UInt16 := 0
  minor : UInt16 := 0
  deriving DecidableEq, Repr, Inhabited

def SchemaVersion.text (version : SchemaVersion) : String :=
  s!"{version.major}.{version.minor}"

structure RuleSet where
  version : SchemaVersion := {}
  rules : List Rule := []
  /-- The largest id, also among rules that were left out for another platform. -/
  maxId : UInt32 := 0
  /-- Whether some rule, left out or not, had fields or features that are not known. -/
  unknown : Bool := false
  deriving BEq, Inhabited

def Rule.isFlagged (rule : Rule) : Bool :=
  rule.unknownFields || rule.unknownFeatures

namespace RuleSet

def ofRules (version : SchemaVersion) (rules : List Rule) : RuleSet where
  version := version
  rules := rules
  maxId := (rules.map (·.id)).foldl max 0
  unknown := rules.any Rule.isFlagged

/-- The first fault of rules that stand from the given index on, after rules with the given ids:
an id of zero, an id seen before, or no features. -/
def fault? (index : Nat) (seen : List UInt32) : List Rule → Option LoadError
  | [] => none
  | rule :: rules =>
    if rule.id = 0 then some (.invalidId index)
    else if rule.id ∈ seen then some (.duplicateId rule.id)
    else if rule.features.isEmpty then some (.emptyBlacklist rule.id)
    else fault? (index + 1) (rule.id :: seen) rules

def build (version : SchemaVersion) (rules : List Rule) : Except LoadError RuleSet :=
  match fault? 0 [] rules with
  | some error => .error error
  | none => .ok (ofRules version rules)

def restrict (set : RuleSet) (keeps : Rule → Bool) : RuleSet :=
  { set with rules := set.rules.filter keeps }

def evaluate (set : RuleSet) (hardware : Hardware) : Evaluation :=
  GpuRules.evaluate set.rules hardware

def text (set : RuleSet) : String :=
  "RuleSet(version " ++ set.version.text ++ s!", {set.rules.length} entries, max id {set.maxId})"

end RuleSet

end GpuRules
