import GpuRules.Proofs.Reading.Entry
import Mathlib.Data.List.Nodup

/-! Which keys of an entry are known. A key is known where the reader has a use for it and its value
is of the kind that the reader asks for. -/

namespace GpuRules.Config

open Json (Members)

def HasKind : Json.Kind → Json → Prop
  | .string, .string _ => True
  | .list, .array _ => True
  | .object, .object _ => True
  | _, _ => False

theorem hasKind_string (json : Json) : HasKind .string json ↔ json.string?.isSome := by
  cases json <;> simp [HasKind, Json.string?]

theorem hasKind_list (json : Json) : HasKind .list json ↔ json.array?.isSome := by
  cases json <;> simp [HasKind, Json.array?]

theorem hasKind_object (json : Json) : HasKind .object json ↔ json.object?.isSome := by
  cases json <;> simp [HasKind, Json.object?]

def slotKind : Slot → Json.Kind
  | .os => .object
  | .vendorId => .string
  | .deviceId => .list
  | .multiGpuStyle => .string
  | .driverVendor | .driverVersion | .driverDate | .glVendor | .glRenderer => .object
  | .perfGraphics | .perfGaming | .perfOverall => .object

/-- Whether an exception may have the value under the key: a description, a list of bugs, or a
criterion of the right kind, be it one that can be built or not. -/
inductive Allowed : String → Json → Prop
  | description {json : Json} : HasKind .string json → Allowed "description" json
  | bugs (list : BugList) {json : Json} : HasKind .list json → Allowed list.key json
  | criterion (slot : Slot) {json : Json} : HasKind (slotKind slot) json → Allowed slot.key json

def exceptionTable : List String :=
  "description" :: BugList.cr.key :: BugList.webkit.key :: Slot.all.map Slot.key

def entryTable : List String :=
  ["id", "blacklist", "browser_version", "disabled", "exceptions"]

theorem nodup_tables : (entryTable ++ exceptionTable).Nodup := by decide

theorem mem_exceptionTable_of_allowed {key : String} {json : Json} (h : Allowed key json) :
    key ∈ exceptionTable := by
  cases h with
  | description => simp [exceptionTable]
  | bugs list => cases list <;> simp [exceptionTable]
  | criterion slot => simp [exceptionTable]

theorem not_allowed_of_mem_entryTable {key : String} (h : key ∈ entryTable) (json : Json) :
    ¬Allowed key json := by
  intro hallowed
  have hdisjoint := (List.nodup_append'.mp nodup_tables).2.2
  exact hdisjoint h (mem_exceptionTable_of_allowed hallowed)

def AllAllowed (members : Members) : Prop :=
  ∀ key json, members.get? key = some json → Allowed key json

theorem isSome_bind_iff {α : Type} {cast : Json → Option α} {value : Option Json} :
    (value >>= cast).isSome ↔ ∃ json, value = some json ∧ (cast json).isSome := by
  cases value <;> simp

theorem Field.isRecognised_read {α β : Type} (expected : Json.Kind) (cast : Json → Option β)
    (build : β → Except CriterionError α) (value : Option Json) :
    (Field.read expected cast build value).isRecognised = (value >>= cast).isSome := by
  cases value with
  | none => rfl
  | some json =>
    simp only [Field.read, Option.bind_eq_bind, Option.bind_some]
    cases cast json with
    | none => rfl
    | some payload => cases hbuild : build payload <;> simp [hbuild, Field.isRecognised]

theorem isRecognised_read_iff (members : Members) (slot : Slot) :
    (Fields.read members).isRecognised slot ↔
      ∃ json, members.get? slot.key = some json ∧ HasKind (slotKind slot) json := by
  cases slot <;>
    simp only [Fields.isRecognised, Fields.read, Field.isRecognised_read, isSome_bind_iff, slotKind,
      hasKind_string, hasKind_list, hasKind_object]

theorem mem_recognised_iff {members : Members} {key : String} :
    key ∈ (Fields.read members).recognised ↔
      ∃ slot json, key = slot.key ∧ members.get? key = some json ∧ HasKind (slotKind slot) json := by
  simp only [Fields.recognised, List.mem_map, List.mem_filter, Slot.mem_all, true_and,
    isRecognised_read_iff]
  constructor
  · rintro ⟨slot, ⟨json, hget, hkind⟩, rfl⟩
    exact ⟨slot, json, rfl, hget, hkind⟩
  · rintro ⟨slot, json, rfl, hget, hkind⟩
    exact ⟨slot, ⟨json, hget, hkind⟩, rfl⟩

theorem mem_sharedKeys_iff {members : Members} {key : String} :
    key ∈ sharedKeys members ↔ ∃ json, members.get? key = some json ∧ Allowed key json := by
  simp only [sharedKeys, List.mem_append, mem_knownIf, mem_recognised_iff, isSome_bind_iff,
    ← hasKind_string, ← hasKind_list]
  constructor
  · rintro (((⟨rfl, json, hget, hkind⟩ | ⟨rfl, json, hget, hkind⟩) | ⟨rfl, json, hget, hkind⟩) |
      ⟨slot, json, rfl, hget, hkind⟩)
    · exact ⟨json, hget, .description hkind⟩
    · exact ⟨json, hget, .bugs .cr hkind⟩
    · exact ⟨json, hget, .bugs .webkit hkind⟩
    · exact ⟨json, hget, .criterion slot hkind⟩
  · rintro ⟨json, hget, hallowed⟩
    cases hallowed with
    | description hkind => exact .inl (.inl (.inl ⟨rfl, json, hget, hkind⟩))
    | bugs list hkind =>
      cases list with
      | cr => exact .inl (.inl (.inr ⟨rfl, json, hget, hkind⟩))
      | webkit => exact .inl (.inr ⟨rfl, json, hget, hkind⟩)
    | criterion slot hkind => exact .inr ⟨slot, json, rfl, hget, hkind⟩

theorem mem_keys_iff {members : Members} {key : String} :
    key ∈ members.map Prod.fst ↔ ∃ json, members.get? key = some json := by
  constructor
  · intro hmem
    obtain ⟨member, hmember, rfl⟩ := List.mem_map.mp hmem
    rw [← Option.isSome_iff_exists, Option.isSome_iff_ne_none]
    intro hnone
    have hne := List.lookup_eq_none_iff.mp hnone member hmember
    simp at hne
  · rintro ⟨json, hget⟩
    obtain ⟨before, after, rfl, -⟩ := List.lookup_eq_some_iff.mp hget
    simp

/-- Unknown keys are looked for among the members; a member that another of its key hides is known
with it. -/
theorem hasUnknown_eq_false_iff {known : List String} {members : Members} :
    hasUnknown known members = false ↔
      ∀ key json, members.get? key = some json → key ∈ known := by
  have hkeys : hasUnknown known members = false ↔ ∀ key ∈ members.map Prod.fst, key ∈ known := by
    simp [hasUnknown]
  simp only [hkeys, mem_keys_iff, forall_exists_index]

theorem hasUnknown_sharedKeys_iff (members : Members) :
    hasUnknown (sharedKeys members) members = false ↔ AllAllowed members := by
  rw [hasUnknown_eq_false_iff]
  apply forall₃_congr
  intro key json hget
  simp only [mem_sharedKeys_iff, hget, Option.some.injEq, exists_eq_left']

end GpuRules.Config
