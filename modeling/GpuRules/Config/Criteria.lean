import GpuRules.Conditions
import GpuRules.Config.Field
import GpuRules.Json.Printer

/-!
Criteria as configuration objects spell them, and the twelve of a rule read together.
-/

namespace GpuRules.Config

open Json (Members)

def textAt (members : Members) (key : String) : Except CriterionError String :=
  match members.get? key with
  | none => .ok ""
  | some (.string text) => .ok text
  | some _ => .error (.wrongType key .string)

def operatorOrAny (members : Members) : Except CriterionError String :=
  match members.get? "op" with
  | none => .ok "any"
  | some _ => textAt members "op"

def osCriterion (members : Members) : Except CriterionError OsCriterion := do
  let os ← textAt members "type"
  match members.get? "version" with
  | none => OsCriterion.parse os "any" "" ""
  | some (.object version) =>
    OsCriterion.parse os (← operatorOrAny version) (← textAt version "number")
      (← textAt version "number2")
  | some _ => .error (.wrongType "version" .object)

def vendorId (text : String) : Except CriterionError PciId :=
  (PciId.parse text).mapError .malformed

def deviceId : Json → Except CriterionError PciId
  | .string text => vendorId text
  | item => .error (.invalidNumber item.compact)

def deviceIds (items : List Json) : Except CriterionError (List PciId) :=
  items.mapM deviceId

def multiGpuStyle (token : String) : Except CriterionError MultiGpuStyle :=
  match MultiGpuStyle.ofToken? token with
  | some style => .ok style
  | none => .error (.unknownMultiGpuStyle token)

def textCriterion (members : Members) : Except CriterionError TextCriterion := do
  TextCriterion.parse (← textAt members "op") (← textAt members "value")

def versionCriterion (members : Members) : Except CriterionError VersionCriterion := do
  VersionCriterion.parse (← operatorOrAny members) (← textAt members "style")
    (← textAt members "number") (← textAt members "number2")

def dateCriterion (members : Members) : Except CriterionError VersionCriterion := do
  VersionCriterion.parseDate (← operatorOrAny members) (← textAt members "number")
    (← textAt members "number2")

def scoreCriterion (members : Members) : Except CriterionError ScoreCriterion := do
  ScoreCriterion.parse (← textAt members "op") (← textAt members "value") (← textAt members "value2")

structure Fields where
  os : Field OsCriterion
  vendorId : Field PciId
  deviceIds : Field (List PciId)
  multiGpuStyle : Field MultiGpuStyle
  driverVendor : Field TextCriterion
  driverVersion : Field VersionCriterion
  driverDate : Field VersionCriterion
  glVendor : Field TextCriterion
  glRenderer : Field TextCriterion
  perfGraphics : Field ScoreCriterion
  perfGaming : Field ScoreCriterion
  perfOverall : Field ScoreCriterion

namespace Fields

def read (members : Members) : Fields :=
  let value (slot : Slot) := members.get? slot.key
  { os := .read .object Json.object? osCriterion (value .os)
    vendorId := .read .string Json.string? Config.vendorId (value .vendorId)
    deviceIds := .read .list Json.array? Config.deviceIds (value .deviceId)
    multiGpuStyle := .read .string Json.string? Config.multiGpuStyle (value .multiGpuStyle)
    driverVendor := .read .object Json.object? textCriterion (value .driverVendor)
    driverVersion := .read .object Json.object? versionCriterion (value .driverVersion)
    driverDate := .read .object Json.object? dateCriterion (value .driverDate)
    glVendor := .read .object Json.object? textCriterion (value .glVendor)
    glRenderer := .read .object Json.object? textCriterion (value .glRenderer)
    perfGraphics := .read .object Json.object? scoreCriterion (value .perfGraphics)
    perfGaming := .read .object Json.object? scoreCriterion (value .perfGaming)
    perfOverall := .read .object Json.object? scoreCriterion (value .perfOverall) }

def error? (fields : Fields) : Slot → Option CriterionError
  | .os => fields.os.error? .os
  | .vendorId => fields.vendorId.error? .vendorId
  | .deviceId => fields.deviceIds.error? .deviceId
  | .multiGpuStyle => fields.multiGpuStyle.error? .multiGpuStyle
  | .driverVendor => fields.driverVendor.error? .driverVendor
  | .driverVersion => fields.driverVersion.error? .driverVersion
  | .driverDate => fields.driverDate.error? .driverDate
  | .glVendor => fields.glVendor.error? .glVendor
  | .glRenderer => fields.glRenderer.error? .glRenderer
  | .perfGraphics => fields.perfGraphics.error? .perfGraphics
  | .perfGaming => fields.perfGaming.error? .perfGaming
  | .perfOverall => fields.perfOverall.error? .perfOverall

/-- The slots whose criterion is malformed, and how, in reading order. -/
def errors (fields : Fields) : List (Slot × CriterionError) :=
  Slot.all.filterMap fun slot => (fields.error? slot).map (slot, ·)

def isRecognised (fields : Fields) : Slot → Bool
  | .os => fields.os.isRecognised
  | .vendorId => fields.vendorId.isRecognised
  | .deviceId => fields.deviceIds.isRecognised
  | .multiGpuStyle => fields.multiGpuStyle.isRecognised
  | .driverVendor => fields.driverVendor.isRecognised
  | .driverVersion => fields.driverVersion.isRecognised
  | .driverDate => fields.driverDate.isRecognised
  | .glVendor => fields.glVendor.isRecognised
  | .glRenderer => fields.glRenderer.isRecognised
  | .perfGraphics => fields.perfGraphics.isRecognised
  | .perfGaming => fields.perfGaming.isRecognised
  | .perfOverall => fields.perfOverall.isRecognised

def recognised (fields : Fields) : List String :=
  (Slot.all.filter fields.isRecognised).map Slot.key

def conditions (fields : Fields) : Conditions where
  os := fields.os.value?
  vendorId := fields.vendorId.value?.getD 0
  deviceIds := fields.deviceIds.value?.getD []
  multiGpuStyle := fields.multiGpuStyle.value?
  driverVendor := fields.driverVendor.value?
  driverVersion := fields.driverVersion.value?
  driverDate := fields.driverDate.value?
  glVendor := fields.glVendor.value?
  glRenderer := fields.glRenderer.value?
  perfGraphics := fields.perfGraphics.value?
  perfGaming := fields.perfGaming.value?
  perfOverall := fields.perfOverall.value?

end Fields

end GpuRules.Config
