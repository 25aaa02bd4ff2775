import GpuRules.RuleSet

/-!
Diagnostic events: what is worth telling about a configuration besides the rules in it.
-/

namespace GpuRules

inductive Level where
  | warning | debug
  deriving DecidableEq, Repr

/-- Rules are named by their id; what is told of an exception names the rule that it belongs to. -/
inductive Event where
  | malformedCriterion (rule : UInt32) (slot : Slot) (error : CriterionError)
  | unknownFeature (rule : UInt32) (name : String)
  | droppedException (rule : UInt32) (index : Nat)
  | unknownFields (rule : UInt32)
  | otherBrowser (index : Nat) (browser : Version)
  | published (version : SchemaVersion) (rules : Nat) (maxId : UInt32)
  deriving Repr

namespace Event

def level : Event → Level
  | .otherBrowser .. | .published .. => .debug
  | _ => .warning

def message : Event → String
  | .malformedCriterion .. => "malformed criterion"
  | .unknownFeature .. => "unknown blacklisted feature"
  | .droppedException .. => "dropping exception with unknown fields"
  | .unknownFields .. => "entry has unknown fields"
  | .otherBrowser .. => "entry does not apply to this browser version"
  | .published .. => "publishing gpu blacklist"

end Event

end GpuRules
