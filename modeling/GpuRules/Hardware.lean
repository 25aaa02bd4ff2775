import GpuRules.Criterion.Score
import GpuRules.PciId
import GpuRules.Platform
import GpuRules.Version.Reader

/-!
A snapshot of the platform and the GPU, which rules are evaluated against.
-/

namespace GpuRules

structure Scores where
  graphics : Score := default
  gaming : Score := default
  overall : Score := default
  deriving DecidableEq, Repr, Inhabited

structure Hardware where
  os : OsType := .any
  /-- Nothing if the release is not known. -/
  release : Option Version := none
  vendorId : PciId := 0
  deviceId : PciId := 0
  optimus : Bool := false
  amdSwitchable : Bool := false
  driverVendor : String := ""
  driverVersion : String := ""
  driverDate : String := ""
  glVendor : String := ""
  glRenderer : String := ""
  scores : Scores := {}
  deriving Repr, Inhabited

namespace Hardware

def withOs (hardware : Hardware) (os : OsType) (release : String) : Hardware :=
  { hardware with os, release := Version.ofRelease? release }

end Hardware

end GpuRules
