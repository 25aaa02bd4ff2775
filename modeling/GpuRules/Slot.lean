/-!
The twelve places of a rule that a criterion can take.
-/

namespace GpuRules

inductive Slot where
  | os | vendorId | deviceId | multiGpuStyle | driverVendor | driverVersion | driverDate
  | glVendor | glRenderer | perfGraphics | perfGaming | perfOverall
  deriving DecidableEq, Repr

namespace Slot

/-- Every slot, in the order in which a rule is read. -/
def all : List Slot :=
  [.os, .vendorId, .deviceId, .multiGpuStyle, .driverVendor, .driverVersion, .driverDate,
   .glVendor, .glRenderer, .perfGraphics, .perfGaming, .perfOverall]

@[simp] theorem mem_all (slot : Slot) : slot ∈ all := by
  cases slot <;> decide

theorem nodup_all : all.Nodup := by decide

def key : Slot → String
  | .os => "os"
  | .vendorId => "vendor_id"
  | .deviceId => "device_id"
  | .multiGpuStyle => "multi_gpu_style"
  | .driverVendor => "driver_vendor"
  | .driverVersion => "driver_version"
  | .driverDate => "driver_date"
  | .glVendor => "gl_vendor"
  | .glRenderer => "gl_renderer"
  | .perfGraphics => "perf_graphics"
  | .perfGaming => "perf_gaming"
  | .perfOverall => "perf_overall"

theorem key_injective {a b : Slot} (h : a.key = b.key) : a = b := by
  cases a <;> cases b <;> first | rfl | simp [key] at h

end Slot

end GpuRules
