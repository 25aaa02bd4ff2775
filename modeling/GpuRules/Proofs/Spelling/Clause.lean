import GpuRules.Proofs.PciId
import GpuRules.Proofs.Reading.Insertion
import GpuRules.Proofs.Reading.Keys
import GpuRules.Proofs.Spelling.Words
import GpuRules.Rule.Setting

/-! Clauses of a rule, each of which can be said in a configuration or be set by hand. Both ways go
on clause by clause, and at each of them a later clause of one kind replaces an earlier one. So what
has been said so far is at every point read as what has been set so far. -/

namespace GpuRules

open Config
open Json (Members)

namespace Spelling

/-- Words that are accepted, and the criterion that they make. -/
structure Spelt {W C : Type} (parse : W → Except CriterionError C) where
  words : W
  criterion : C
  accepted : parse words = .ok criterion

abbrev Content : Slot → Type
  | .os => Spelt OsWords.parse
  | .vendorId => PciId
  | .deviceId => List PciId
  | .multiGpuStyle => MultiGpuStyle
  | .driverVersion => Spelt Words.parseVersion
  | .driverDate => Spelt Words.parseDate
  | .driverVendor | .glVendor | .glRenderer => Spelt Words.parseText
  | .perfGraphics | .perfGaming | .perfOverall => Spelt Words.parseScore

def Content.json {slot : Slot} (content : Content slot) : Json :=
  match slot, content with
  | .os, spelt => .object spelt.words.members
  | .vendorId, id => .string id.text
  | .deviceId, ids => .array (ids.map fun id => .string id.text)
  | .multiGpuStyle, style => .string style.token
  | .driverVersion, spelt => .object (spelt.words.members versionKeys)
  | .driverDate, spelt => .object (spelt.words.members boundKeys)
  | .driverVendor, spelt | .glVendor, spelt | .glRenderer, spelt =>
    .object (spelt.words.members textKeys)
  | .perfGraphics, spelt | .perfGaming, spelt | .perfOverall, spelt =>
    .object (spelt.words.members scoreKeys)

def Content.setting {slot : Slot} (content : Content slot) : Setting :=
  match slot, content with
  | .os, spelt => .os spelt.criterion
  | .vendorId, id => .vendorId id
  | .deviceId, ids => .deviceIds ids
  | .multiGpuStyle, style => .multiGpuStyle (some style)
  | .driverVendor, spelt => .driverVendor spelt.criterion
  | .driverVersion, spelt => .driverVersion spelt.criterion
  | .driverDate, spelt => .driverDate spelt.criterion
  | .glVendor, spelt => .glVendor spelt.criterion
  | .glRenderer, spelt => .glRenderer spelt.criterion
  | .perfGraphics, spelt => .perfGraphics spelt.criterion
  | .perfGaming, spelt => .perfGaming spelt.criterion
  | .perfOverall, spelt => .perfOverall spelt.criterion

inductive Clause where
  | description (text : String)
  | bugs (list : BugList) (numbers : List Int64)
  | criterion (slot : Slot) (content : Content slot)

namespace Clause

def key : Clause → String
  | .description _ => "description"
  | .bugs list .. => list.key
  | .criterion slot .. => slot.key

def json : Clause → Json
  | .description text => .string text
  | .bugs _ numbers => .array (numbers.map fun bug => .integer bug.toInt)
  | .criterion _ content => content.json

def setting : Clause → Setting
  | .description text => .description text
  | .bugs .cr numbers => .crBugs numbers
  | .bugs .webkit numbers => .webkitBugs numbers
  | .criterion _ content => content.setting

end Clause

def spell (own : Members) (clauses : List Clause) : Members :=
  clauses.foldl (fun members clause => members.insert clause.key clause.json) own

theorem hasKind_json {slot : Slot} (content : Content slot) :
    HasKind (slotKind slot) content.json := by
  cases slot <;> trivial

theorem allowed_clause (clause : Clause) : Allowed clause.key clause.json := by
  cases clause with
  | description text => exact .description trivial
  | bugs list numbers => exact .bugs list trivial
  | criterion slot content => exact .criterion slot (hasKind_json content)

section Reading

variable {fields : Fields} {rule : Rule}

theorem vendorId_text (id : PciId) : vendorId id.text = .ok id := by
  unfold vendorId
  rw [PciId.parse_text]
  rfl

theorem deviceIds_text (ids : List PciId) :
    deviceIds (ids.map fun id => .string id.text) = .ok ids := by
  have hread := mapM_map_eq_pure (fun id : PciId => Json.string id.text) deviceId vendorId_text ids
  rwa [List.map_id'] at hread

theorem multiGpuStyle_token (style : MultiGpuStyle) : multiGpuStyle style.token = .ok style := by
  unfold multiGpuStyle
  rw [MultiGpuStyle.ofToken?_token]

theorem read_text (spelt : Spelt Words.parseText) :
    Field.read .object Json.object? textCriterion (some (.object (spelt.words.members textKeys))) =
      .built spelt.criterion :=
  Field.read_of_build rfl ((textCriterion_members spelt.words).trans spelt.accepted)

theorem read_score (spelt : Spelt Words.parseScore) :
    Field.read .object Json.object? scoreCriterion
        (some (.object (spelt.words.members scoreKeys))) =
      .built spelt.criterion :=
  Field.read_of_build rfl ((scoreCriterion_members spelt.words).trans spelt.accepted)

theorem put_content {slot : Slot} (content : Content slot)
    (h : fields.conditions = rule.conditions) :
    (fields.put content.json slot).conditions = (rule.set content.setting).conditions ∧
      (fields.put content.json slot).error? slot = none := by
  cases slot with
  | os =>
    have hread : Field.read .object Json.object? osCriterion content.json = .built content.criterion :=
      Field.read_of_build rfl ((osCriterion_members content.words).trans content.accepted)
    simp only [Fields.put, hread, Rule.set, Content.setting, ← h]
    exact ⟨rfl, rfl⟩
  | vendorId =>
    have hread : Field.read .string Json.string? Config.vendorId content.json = .built content :=
      Field.read_of_build rfl (vendorId_text content)
    simp only [Fields.put, hread, Rule.set, Content.setting, ← h]
    exact ⟨rfl, rfl⟩
  | deviceId =>
    have hread : Field.read .list Json.array? Config.deviceIds content.json = .built content :=
      Field.read_of_build rfl (deviceIds_text content)
    simp only [Fields.put, hread, Rule.set, Content.setting, ← h]
    exact ⟨rfl, rfl⟩
  | multiGpuStyle =>
    have hread : Field.read .string Json.string? Config.multiGpuStyle content.json = .built content :=
      Field.read_of_build rfl (multiGpuStyle_token content)
    simp only [Fields.put, hread, Rule.set, Content.setting, ← h]
    exact ⟨rfl, rfl⟩
  | driverVersion =>
    have hread : Field.read .object Json.object? versionCriterion content.json = .built content.criterion :=
      Field.read_of_build rfl ((versionCriterion_members content.words).trans content.accepted)
    simp only [Fields.put, hread, Rule.set, Content.setting, ← h]
    exact ⟨rfl, rfl⟩
  | driverDate =>
    have hread : Field.read .object Json.object? dateCriterion content.json = .built content.criterion :=
      Field.read_of_build rfl ((dateCriterion_members content.words).trans content.accepted)
    simp only [Fields.put, hread, Rule.set, Content.setting, ← h]
    exact ⟨rfl, rfl⟩
  | driverVendor | glVendor | glRenderer =>
    have hread : Field.read .object Json.object? textCriterion content.json = _ :=
      read_text content
    simp only [Fields.put, hread, Rule.set, Content.setting, ← h]
    exact ⟨rfl, rfl⟩
  | perfGraphics | perfGaming | perfOverall =>
    have hread : Field.read .object Json.object? scoreCriterion content.json = _ :=
      read_score content
    simp only [Fields.put, hread, Rule.set, Content.setting, ← h]
    exact ⟨rfl, rfl⟩

end Reading

end Spelling

end GpuRules
