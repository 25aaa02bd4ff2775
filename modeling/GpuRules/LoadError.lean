import GpuRules.Criterion.Error

/-!
Why no rule set could be made. Rules of a configuration are known by their place in the list of
entries until their id has been read.
-/

namespace GpuRules

inductive BugList where
  | cr | webkit
  deriving DecidableEq, Repr

def BugList.key : BugList → String
  | .cr => "cr_bugs"
  | .webkit => "webkit_bugs"

inductive LoadError where
  | rootNotObject
  | missingSchemaVersion
  | invalidSchemaVersion (text : String)
  | missingEntries
  | entryNotObject (index : Nat)
  | invalidId (index : Nat)
  | duplicateId (id : UInt32)
  | missingBlacklist (id : UInt32)
  | malformedBlacklist (id : UInt32)
  | emptyBlacklist (id : UInt32)
  | malformedBugList (id : UInt32) (list : BugList)
  | exceptionNotObject (id : UInt32) (index : Nat)
  | malformedBrowserVersion (index : Nat) (cause : CriterionError)
  | invalidBrowserVersion (cause : ParseError)
  deriving DecidableEq, Repr

def LoadError.message : LoadError → String
  | .rootNotObject => "rule set root is not an object"
  | .missingSchemaVersion => "missing schema version"
  | .invalidSchemaVersion text => "invalid schema version '" ++ text ++ "'; expected major.minor"
  | .missingEntries => "missing entries list"
  | .entryNotObject index => s!"entry at index {index} is not an object"
  | .invalidId index => s!"entry at index {index} has a missing or invalid id"
  | .duplicateId id => s!"duplicate entry id {id}"
  | .missingBlacklist id => s!"entry {id} has no blacklist"
  | .malformedBlacklist id => s!"entry {id} has a non-string blacklist feature"
  | .emptyBlacklist id => s!"entry {id} has an empty blacklist"
  | .malformedBugList id list => s!"entry {id} has a malformed " ++ list.key ++ " list"
  | .exceptionNotObject id index => s!"exception {index} of entry {id} is not an object"
  | .malformedBrowserVersion index cause =>
      s!"entry at index {index} has a malformed browser_version: " ++ cause.message
  | .invalidBrowserVersion cause => "invalid reference browser version: " ++ cause.message

end GpuRules
