/-!
Operating systems, and the ways in which two GPUs share a machine.
-/

namespace GpuRules

/-- In a criterion `any` admits every system. In a hardware snapshot it stands for the platform
that the program runs on. -/
inductive OsType where
  | windows | macOs | linux | chromeOs | any
  deriving DecidableEq, Repr, Inhabited

namespace OsType

def token : OsType → String
  | .windows => "win"
  | .macOs => "macosx"
  | .linux => "linux"
  | .chromeOs => "chromeos"
  | .any => "any"

def ofToken? : String → Option OsType
  | "win" => some .windows
  | "macosx" => some .macOs
  | "linux" => some .linux
  | "chromeos" => some .chromeOs
  | "any" => some .any
  | _ => none

@[simp] theorem ofToken?_token (os : OsType) : ofToken? os.token = some os := by
  cases os <;> rfl

/-- The platform that this build is for. A build for another one has that one here, or `any` where
there is no name for it; nothing is proved from which it is. -/
def current : OsType := .linux

def resolve : OsType → OsType
  | .any => current
  | os => os

end OsType

inductive MultiGpuStyle where
  | optimus | amdSwitchable
  deriving DecidableEq, Repr

namespace MultiGpuStyle

def token : MultiGpuStyle → String
  | .optimus => "optimus"
  | .amdSwitchable => "amd_switchable"

def ofToken? : String → Option MultiGpuStyle
  | "optimus" => some .optimus
  | "amd_switchable" => some .amdSwitchable
  | _ => none

@[simp] theorem ofToken?_token (style : MultiGpuStyle) : ofToken? style.token = some style := by
  cases style <;> rfl

end MultiGpuStyle

end GpuRules
