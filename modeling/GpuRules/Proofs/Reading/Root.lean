import GpuRules.Config.Load
import GpuRules.Proofs.Reading.Value

/-! Configurations by their entries. Of everything else in the root only the schema version is
read. -/

namespace GpuRules

open Config
open Json (Members)

def withEntries (root : Members) (items : List Json) : Json :=
  .object (root.insert "entries" (.array items))

theorem ofTree_withEntries {options : LoadOptions} {browser : Version} {root : Members}
    {text : String} {version : SchemaVersion}
    (hbrowser : Version.parse options.browserVersion = .ok browser)
    (htext : root.get? "version" = some (.string text)) (hversion : schemaVersion text = .ok version)
    (items : List Json) :
    RuleSet.ofTree options (withEntries root items) = (do
      let rules ← readItems browser 0 [] items
      return (RuleSet.ofRules version rules).restrict options.keeps) := by
  have hlist := Members.get?_insert_self root "entries" (.array items)
  have hstays := Members.get?_insert_of_ne root (.array items) (by decide : "version" ≠ "entries")
  unfold RuleSet.ofTree withEntries
  simp only [Json.object?, Report.require_some, Report.pure_bind, hlist, hstays, htext,
    Option.bind_eq_bind, Option.bind_some, Json.string?, Json.array?, hversion, hbrowser,
    Except.mapError, Report.ofExcept_ok]

end GpuRules
