import GpuRules.Proofs.Reading.Entry

/-! Objects with one more member, read. Each reading looks at keys of its own, so a new member shows
in the reading of its key and in no other. -/

namespace GpuRules.Config

open Json (Members)

/-! The description, the lists of bugs and the slots have keys of their own. -/

theorem list_key_ne (list : BugList) : list.key ≠ "description" := by
  cases list <;> decide

theorem slot_key_ne (slot : Slot) : slot.key ≠ "description" := by
  cases slot <;> decide

theorem slot_key_ne_list_key (slot : Slot) (list : BugList) : slot.key ≠ list.key := by
  cases slot <;> cases list <;> decide

theorem list_key_injective {list other : BugList} (h : list.key = other.key) : list = other := by
  revert h
  cases list <;> cases other <;> decide

def descriptionOf (members : Members) : String :=
  (members.get? "description" >>= Json.string?).getD ({} : RuleBody).description

theorem descriptionOf_insert_self (members : Members) (text : String) :
    descriptionOf (members.insert "description" (.string text)) = text := by
  unfold descriptionOf
  rw [Members.get?_insert_self]
  rfl

theorem descriptionOf_insert_of_ne (members : Members) {key : String} (json : Json)
    (h : "description" ≠ key) : descriptionOf (members.insert key json) = descriptionOf members := by
  unfold descriptionOf
  rw [Members.get?_insert_of_ne members json h]

theorem bugs?_insert_of_ne (members : Members) {key : String} {list : BugList} (json : Json)
    (h : list.key ≠ key) : bugs? (members.insert key json) list = bugs? members list := by
  unfold bugs?
  rw [Members.get?_insert_of_ne members json h]

theorem Field.read_of_build {α β : Type} {expected : Json.Kind} {cast : Json → Option β}
    {build : β → Except CriterionError α} {json : Json} {payload : β} {value : α}
    (hcast : cast json = some payload) (hbuild : build payload = .ok value) :
    Field.read expected cast build (some json) = .built value := by
  unfold read
  simp only [hcast, hbuild]

theorem Fields.read_congr {members members' : Members}
    (h : ∀ slot : Slot, members.get? slot.key = members'.get? slot.key) :
    read members = read members' := by
  unfold read
  simp only [h]

theorem Fields.read_insert_of_ne (members : Members) {key : String} (json : Json)
    (h : ∀ slot : Slot, slot.key ≠ key) :
    read (members.insert key json) = read members := by
  apply read_congr
  intro slot
  exact Members.get?_insert_of_ne members json (h slot)

def Fields.put (fields : Fields) (json : Json) : Slot → Fields
  | .os => { fields with os := .read .object Json.object? osCriterion json }
  | .vendorId => { fields with vendorId := .read .string Json.string? Config.vendorId json }
  | .deviceId => { fields with deviceIds := .read .list Json.array? Config.deviceIds json }
  | .multiGpuStyle =>
    { fields with multiGpuStyle := .read .string Json.string? Config.multiGpuStyle json }
  | .driverVendor => { fields with driverVendor := .read .object Json.object? textCriterion json }
  | .driverVersion =>
    { fields with driverVersion := .read .object Json.object? versionCriterion json }
  | .driverDate => { fields with driverDate := .read .object Json.object? dateCriterion json }
  | .glVendor => { fields with glVendor := .read .object Json.object? textCriterion json }
  | .glRenderer => { fields with glRenderer := .read .object Json.object? textCriterion json }
  | .perfGraphics => { fields with perfGraphics := .read .object Json.object? scoreCriterion json }
  | .perfGaming => { fields with perfGaming := .read .object Json.object? scoreCriterion json }
  | .perfOverall => { fields with perfOverall := .read .object Json.object? scoreCriterion json }

theorem Fields.read_insert (members : Members) (slot : Slot) (json : Json) :
    read (members.insert slot.key json) = (read members).put json slot := by
  have hself := Members.get?_insert_self members slot.key json
  have hother {other : Slot} (h : other ≠ slot) :
      (members.insert slot.key json).get? other.key = members.get? other.key := by
    apply Members.get?_insert_of_ne
    intro heq
    exact h (Slot.key_injective heq)
  cases slot <;>
    simp only [read, put, hself, hother, ne_eq, reduceCtorEq, not_false_eq_true]

theorem Fields.error?_put (fields : Fields) (json : Json) {slot other : Slot} (h : other ≠ slot) :
    (fields.put json slot).error? other = fields.error? other := by
  revert h
  cases slot <;> cases other <;> simp [Fields.put, Fields.error?]

end GpuRules.Config
