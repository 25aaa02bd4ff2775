import GpuRules.Rule

/-!
Rules put together by hand, setting by setting, instead of read from a configuration.
-/

namespace GpuRules

inductive Setting where
  | disabled (disabled : Bool)
  | description (text : String)
  | crBugs (bugs : List Int64)
  | webkitBugs (bugs : List Int64)
  | os (criterion : OsCriterion)
  | vendorId (id : PciId)
  | deviceIds (ids : List PciId)
  | multiGpuStyle (style : Option MultiGpuStyle)
  | driverVendor (criterion : TextCriterion)
  | driverVersion (criterion : VersionCriterion)
  | driverDate (criterion : VersionCriterion)
  | glVendor (criterion : TextCriterion)
  | glRenderer (criterion : TextCriterion)
  | perfGraphics (criterion : ScoreCriterion)
  | perfGaming (criterion : ScoreCriterion)
  | perfOverall (criterion : ScoreCriterion)
  | features (mask : FeatureMask)
  | exception (rule : Rule)

namespace Rule

/-- A setting replaces an earlier one of its kind, but an exception comes after earlier ones. -/
def set (rule : Rule) : Setting → Rule
  | .disabled disabled => { rule with disabled }
  | .description text => { rule with description := text }
  | .crBugs bugs => { rule with crBugs := bugs }
  | .webkitBugs bugs => { rule with webkitBugs := bugs }
  | .os criterion => { rule with conditions.os := criterion }
  | .vendorId id => { rule with conditions.vendorId := id }
  | .deviceIds ids => { rule with conditions.deviceIds := ids }
  | .multiGpuStyle style => { rule with conditions.multiGpuStyle := style }
  | .driverVendor criterion => { rule with conditions.driverVendor := criterion }
  | .driverVersion criterion => { rule with conditions.driverVersion := criterion }
  | .driverDate criterion => { rule with conditions.driverDate := criterion }
  | .glVendor criterion => { rule with conditions.glVendor := criterion }
  | .glRenderer criterion => { rule with conditions.glRenderer := criterion }
  | .perfGraphics criterion => { rule with conditions.perfGraphics := criterion }
  | .perfGaming criterion => { rule with conditions.perfGaming := criterion }
  | .perfOverall criterion => { rule with conditions.perfOverall := criterion }
  | .features mask => { rule with features := mask }
  | .exception other => { rule with exceptions := rule.exceptions ++ [other] }

/-- The rule of an id, or an exception if the id is zero, with settings made one after another. -/
def ofSettings (id : UInt32) (settings : List Setting) : Rule :=
  settings.foldl set { id }

end Rule

end GpuRules
