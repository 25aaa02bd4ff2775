import GpuRules.Proofs.Reading.Entry

/-! The shape of what is read from an entry. A slot whose criterion is malformed is left unset, so a
list of malformed slots never contradicts the conditions beside it. An exception that is kept has
conditions, a description and bugs, and nothing else. -/

namespace GpuRules

def Conditions.IsUnset (conditions : Conditions) : Slot → Prop
  | .os => conditions.os = none
  | .vendorId => conditions.vendorId = 0
  | .deviceId => conditions.deviceIds = []
  | .multiGpuStyle => conditions.multiGpuStyle = none
  | .driverVendor => conditions.driverVendor = none
  | .driverVersion => conditions.driverVersion = none
  | .driverDate => conditions.driverDate = none
  | .glVendor => conditions.glVendor = none
  | .glRenderer => conditions.glRenderer = none
  | .perfGraphics => conditions.perfGraphics = none
  | .perfGaming => conditions.perfGaming = none
  | .perfOverall => conditions.perfOverall = none

theorem Conditions.holds_of_isUnset {conditions : Conditions} {slot : Slot}
    (h : conditions.IsUnset slot) (os : OsType) (hardware : Hardware) :
    conditions.holds os hardware slot := by
  cases slot <;> simp only [IsUnset] at h <;> simp [holds, h]

theorem Conditions.admits_eq_holds {conditions : Conditions} {slot : Slot}
    (h : ∀ other, other ≠ slot → conditions.IsUnset other) (os : OsType) (hardware : Hardware) :
    conditions.admits os hardware = conditions.holds os hardware slot := by
  rw [Bool.eq_iff_iff, admits_iff]
  constructor
  · exact fun hholds => hholds slot
  · intro hslot other
    by_cases hother : other = slot
    · rw [hother]
      exact hslot
    · exact holds_of_isUnset (h other hother) os hardware

/-- The malformed slots beside conditions: each is listed once, in reading order, and is left
unset. -/
structure Conditions.Orderly (conditions : Conditions) (malformed : List Slot) : Prop where
  distinct : malformed.Nodup
  order : malformed.Sublist Slot.all
  unset : ∀ slot ∈ malformed, conditions.IsUnset slot

/-- A rule of the kind that exceptions are. -/
structure Rule.IsBare (rule : Rule) : Prop where
  id : rule.id = 0
  disabled : rule.disabled = false
  features : rule.features = ∅
  exceptions : rule.exceptions = []
  unknownFields : rule.unknownFields = false
  unknownFeatures : rule.unknownFeatures = false

structure Rule.IsRead (rule : Rule) : Prop where
  orderly : rule.conditions.Orderly rule.malformed
  exceptions : ∀ exception ∈ rule.exceptions,
    exception.IsBare ∧ exception.conditions.Orderly exception.malformed

namespace Config

open Json (Members)

theorem Field.value?_eq_none {α : Type} {field : Field α} {slot : Slot}
    (h : (field.error? slot).isSome) : field.value? = none := by
  cases field with
  | built value => cases h
  | _ => rfl

theorem Fields.isUnset_of_error? {fields : Fields} {slot : Slot}
    (h : (fields.error? slot).isSome) : fields.conditions.IsUnset slot := by
  cases slot with
  | vendorId => exact congrArg (Option.getD · 0) (Field.value?_eq_none h)
  | deviceId => exact congrArg (Option.getD · []) (Field.value?_eq_none h)
  | _ => exact Field.value?_eq_none h

theorem Fields.map_fst_errors (fields : Fields) :
    fields.errors.map Prod.fst = Slot.all.filter fun slot => (fields.error? slot).isSome := by
  unfold errors
  rw [List.map_filterMap, ← List.filterMap_eq_filter]
  apply List.filterMap_congr
  intro slot _
  cases herror : fields.error? slot <;> simp [Option.guard, herror]

theorem Fields.orderly (fields : Fields) :
    fields.conditions.Orderly (fields.errors.map Prod.fst) := by
  have hsublist : (fields.errors.map Prod.fst).Sublist Slot.all := by
    rw [fields.map_fst_errors]
    exact List.filter_sublist
  refine ⟨hsublist.nodup Slot.nodup_all, hsublist, ?_⟩
  intro slot hmem
  rw [fields.map_fst_errors] at hmem
  exact isUnset_of_error? (List.mem_filter.mp hmem).2

theorem exception?_shape {members : Members} {rule : Rule} (h : exception? members = some rule) :
    rule.conditions.Orderly rule.malformed ∧ (rule.unknownFields = false → rule.IsBare) := by
  obtain ⟨body, hbody, rfl⟩ := exception?_eq_some h
  obtain ⟨crBugs, webkitBugs, rfl⟩ := body?_eq_some hbody
  constructor
  · exact (Fields.read members).orderly
  · intro hknown
    exact ⟨rfl, rfl, rfl, rfl, hknown, rfl⟩

theorem rule?_isRead {members : Members} {rule : Rule} (h : rule? members = some rule) :
    rule.IsRead := by
  obtain ⟨id, body, names, exceptions, -, hbody, -, hexceptions, rfl⟩ := rule?_eq_some h
  obtain ⟨crBugs, webkitBugs, rfl⟩ := body?_eq_some hbody
  refine ⟨(Fields.read members).orderly, ?_⟩
  intro exception hmem
  obtain ⟨hread, hknown⟩ := List.mem_filter.mp hmem
  obtain ⟨item, -, hitem⟩ := (mem_of_mapM_eq_some hexceptions exception).mp hread
  obtain ⟨members', -, hexception⟩ := Option.bind_eq_some_iff.mp hitem
  obtain ⟨horderly, hbare⟩ := exception?_shape hexception
  exact ⟨hbare (by simpa using hknown), horderly⟩

end Config

end GpuRules
