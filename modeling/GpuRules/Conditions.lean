import GpuRules.Criterion.Os
import GpuRules.Criterion.Score
import GpuRules.Criterion.Text
import GpuRules.Hardware
import GpuRules.Slot

/-!
What a rule asks of the hardware, slot by slot. An unset slot asks nothing.
-/

namespace GpuRules

structure Conditions where
  os : Option OsCriterion := none
  /-- Zero if unset. -/
  vendorId : PciId := 0
  /-- Empty if unset. -/
  deviceIds : List PciId := []
  multiGpuStyle : Option MultiGpuStyle := none
  driverVendor : Option TextCriterion := none
  driverVersion : Option VersionCriterion := none
  driverDate : Option VersionCriterion := none
  glVendor : Option TextCriterion := none
  glRenderer : Option TextCriterion := none
  perfGraphics : Option ScoreCriterion := none
  perfGaming : Option ScoreCriterion := none
  perfOverall : Option ScoreCriterion := none
  deriving BEq, Repr, Inhabited

namespace Conditions

/-- A version that cannot be read satisfies no criterion. -/
def containsRead (criterion : VersionCriterion) : Except ParseError Version → Bool
  | .ok version => criterion.contains version
  | .error _ => false

def holds (conditions : Conditions) (os : OsType) (hardware : Hardware) : Slot → Bool
  | .os => conditions.os.all (·.contains os hardware.release)
  | .vendorId => conditions.vendorId == 0 || conditions.vendorId == hardware.vendorId
  | .deviceId => conditions.deviceIds.isEmpty || conditions.deviceIds.contains hardware.deviceId
  | .multiGpuStyle =>
    match conditions.multiGpuStyle with
    | none => true
    | some .optimus => hardware.optimus
    | some .amdSwitchable => hardware.amdSwitchable
  | .driverVendor => conditions.driverVendor.all (·.contains hardware.driverVendor)
  | .driverVersion =>
    conditions.driverVersion.all fun criterion =>
      containsRead criterion (criterion.style.read hardware.driverVersion)
  | .driverDate =>
    conditions.driverDate.all fun criterion =>
      containsRead criterion (Version.ofDate hardware.driverDate)
  | .glVendor => conditions.glVendor.all (·.contains hardware.glVendor)
  | .glRenderer => conditions.glRenderer.all (·.contains hardware.glRenderer)
  | .perfGraphics => conditions.perfGraphics.all (·.admits hardware.scores.graphics)
  | .perfGaming => conditions.perfGaming.all (·.admits hardware.scores.gaming)
  | .perfOverall => conditions.perfOverall.all (·.admits hardware.scores.overall)

def admits (conditions : Conditions) (os : OsType) (hardware : Hardware) : Bool :=
  Slot.all.all (conditions.holds os hardware)

theorem admits_iff {conditions : Conditions} {os : OsType} {hardware : Hardware} :
    conditions.admits os hardware ↔ ∀ slot, conditions.holds os hardware slot := by
  simp [admits]

end Conditions

end GpuRules
