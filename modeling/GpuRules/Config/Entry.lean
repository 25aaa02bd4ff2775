import GpuRules.Config.Criteria
import GpuRules.Config.Report

/-!
One entry of a configuration, read as a rule. A malformed criterion or an unknown key only marks the
rule, and an exception with an unknown key is dropped; everything else that is wrong fails the load.
A key is known when it is one that the entry reads and its value is of the kind that it reads.
-/

namespace GpuRules.Config

open Json (Members)

def id? : Json → Option UInt32
  | .integer value =>
    if 0 < value ∧ value < UInt32.size then some (UInt32.ofNat value.toNat) else none
  | _ => none

def bug? : Json → Option Int64
  | .integer value =>
    if Int64.minValue.toInt ≤ value ∧ value ≤ Int64.maxValue.toInt then some (Int64.ofInt value)
    else none
  | _ => none

def knownIf {α : Type} (key : String) (value : Option α) : List String :=
  if value.isSome then [key] else []

/-- The bugs of an entry. A value that is no list counts as none. -/
def readBugs (owner : UInt32) (list : BugList) (items : Option (List Json)) :
    Report LoadError (List Int64) :=
  match items with
  | none => pure []
  | some items => .require (.malformedBugList owner list) (items.mapM bug?)

/-- What entries and exceptions have in common, and the keys known so far. Messages name the entry
by the given id, also for its exceptions. -/
def readBody (owner : UInt32) (members : Members) : Report LoadError (RuleBody × List String) := do
  let description := members.get? "description" >>= Json.string?
  let crBugs := members.get? BugList.cr.key >>= Json.array?
  let webkitBugs := members.get? BugList.webkit.key >>= Json.array?
  let blank : RuleBody := {}
  let crList ← readBugs owner .cr crBugs
  let webkitList ← readBugs owner .webkit webkitBugs
  let fields := Fields.read members
  Report.note (fields.errors.map fun (slot, error) => .malformedCriterion owner slot error)
  return (
    { blank with
      description := description.getD blank.description
      crBugs := crList
      webkitBugs := webkitList
      conditions := fields.conditions
      malformed := fields.errors.map Prod.fst },
    knownIf "description" description ++ knownIf BugList.cr.key crBugs ++
      knownIf BugList.webkit.key webkitBugs ++ fields.recognised)

def hasUnknown (known : List String) (members : Members) : Bool :=
  members.any fun (key, _) => key ∉ known

def noteUnknown (owner : UInt32) (unknown : Bool) : Report LoadError Unit :=
  .note (if unknown then [.unknownFields owner] else [])

def readException (owner : UInt32) (members : Members) : Report LoadError Rule := do
  let (body, known) ← readBody owner members
  let unknown := hasUnknown known members
  noteUnknown owner unknown
  return { body with unknownFields := unknown }

/-- The exceptions from the given index on, less those with unknown keys, and whether there were
any of those. -/
def readExceptions (owner : UInt32) (index : Nat) :
    List Json → Report LoadError (List Rule × Bool)
  | [] => pure ([], false)
  | item :: items => do
    let members ← .require (.exceptionNotObject owner index) item.object?
    let rule ← readException owner members
    if rule.unknownFields then
      Report.note [.droppedException owner index]
      let (rules, _) ← readExceptions owner (index + 1) items
      return (rules, true)
    else
      let (rules, dropped) ← readExceptions owner (index + 1) items
      return (rule :: rules, dropped)

def readFeatures (id : UInt32) : List Json → Report LoadError (FeatureMask × Bool)
  | [] => pure (∅, false)
  | item :: items => do
    let name ← .require (.malformedBlacklist id) item.string?
    match FeatureMask.ofName? name with
    | some mask =>
      let (rest, unknown) ← readFeatures id items
      return (mask ∪ rest, unknown)
    | none =>
      Report.note [.unknownFeature id name]
      let (rest, _) ← readFeatures id items
      return (rest, true)

def readEntry (index : Nat) (members : Members) : Report LoadError Rule := do
  let id ← .require (.invalidId index) (members.get? "id" >>= id?)
  let disabled := members.get? "disabled" >>= Json.bool?
  let (body, known) ← readBody id members
  let names ← .require (.missingBlacklist id) (members.get? "blacklist" >>= Json.array?)
  if names.isEmpty then Report.fail (.emptyBlacklist id)
  let (features, unknownFeatures) ← readFeatures id names
  let exceptions := members.get? "exceptions" >>= Json.array?
  let (rules, dropped) ← readExceptions id 0 (exceptions.getD [])
  let known := "id" :: "blacklist" :: "browser_version" :: knownIf "disabled" disabled ++
    knownIf "exceptions" exceptions ++ known
  let unknown := hasUnknown known members
  noteUnknown id unknown
  return {
    body with
    id, disabled := disabled.getD false, features, unknownFeatures
    exceptions := rules
    unknownFields := dropped || unknown }

end GpuRules.Config
