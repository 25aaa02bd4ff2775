import GpuRules.Config.Entry
import GpuRules.Config.Options
import GpuRules.Json.Reader

/-!
Loading a rule set from a configuration, all or nothing. Entries for other browser versions are
passed over unread. The largest id and the mark for unknown fields take in all other entries, also
those that the filter on operating systems then leaves out.
-/

namespace GpuRules

namespace Config

open Json (Members)

def schemaVersion (text : String) : Except LoadError SchemaVersion :=
  match Version.parse text with
  | .ok ⟨[major, minor]⟩ => .ok ⟨major, minor⟩
  | _ => .error (.invalidSchemaVersion text)

def supports (browser : Version) (members : Members) : Except CriterionError Bool :=
  match members.get? "browser_version" with
  | none => .ok true
  | some (.object fields) => do
    let criterion ← VersionCriterion.parse (← operatorOrAny fields) "" (← textAt fields "number")
      (← textAt fields "number2")
    return criterion.contains browser
  | some _ => .error (.wrongType "browser_version" .object)

def readItem (browser : Version) (index : Nat) (json : Json) : Report LoadError (Option Rule) := do
  let members ← .require (.entryNotObject index) json.object?
  let supported ← .ofExcept
    ((supports browser members).mapError (.malformedBrowserVersion index))
  if supported then
    return some (← readEntry index members)
  else
    Report.note [.otherBrowser index browser]
    return none

/-- The rules of the items from the given index on, after rules with the given ids. -/
def readItems (browser : Version) (index : Nat) (seen : List UInt32) :
    List Json → Report LoadError (List Rule)
  | [] => pure []
  | json :: rest => do
    match ← readItem browser index json with
    | none => readItems browser (index + 1) seen rest
    | some rule =>
      if rule.id ∈ seen then Report.fail (.duplicateId rule.id)
      else return rule :: (← readItems browser (index + 1) (rule.id :: seen) rest)

end Config

open Config in
def RuleSet.ofTree (options : LoadOptions) (tree : Json) : Report LoadError RuleSet := do
  let root ← .require .rootNotObject tree.object?
  let text ← .require .missingSchemaVersion (root.get? "version" >>= Json.string?)
  let version ← .ofExcept (schemaVersion text)
  let list ← .require .missingEntries (root.get? "entries" >>= Json.array?)
  let browser ← .ofExcept
    ((Version.parse options.browserVersion).mapError .invalidBrowserVersion)
  let rules ← readItems browser 0 [] list
  return (RuleSet.ofRules version rules).restrict options.keeps

end GpuRules
