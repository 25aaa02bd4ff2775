import GpuRules.Feature
import Mathlib.Data.List.Basic

/-! Sets of features by what they have: their unions, what they have in common, and the sets that
lists of names stand for. -/

namespace GpuRules.FeatureMask

theorem isEmpty_iff (mask : FeatureMask) : mask.isEmpty ↔ mask.bits = 0 := by
  unfold isEmpty
  rw [beq_iff_eq]
  constructor
  · rintro rfl
    rfl
  · intro h
    exact congrArg FeatureMask.mk h

theorem isEmpty_union_iff (a b : FeatureMask) : (a ∪ b).isEmpty ↔ a.isEmpty ∧ b.isEmpty := by
  have hbits : (a ∪ b).bits = a.bits ||| b.bits := rfl
  rw [isEmpty_iff, isEmpty_iff, isEmpty_iff, hbits]
  exact BitVec.or_eq_zero_iff

theorem all_contains (mask : FeatureMask) : all.contains mask := by
  unfold contains
  rw [beq_iff_eq]
  exact congrArg FeatureMask.mk BitVec.allOnes_and

theorem eq_of_has {a b : FeatureMask} (h : ∀ feature, a.has feature = b.has feature) : a = b := by
  have hindex : ∀ i : Fin 6, ∃ feature ∈ Feature.all, feature.index = i := by decide
  obtain ⟨bits⟩ := a
  obtain ⟨bits'⟩ := b
  congr 1
  apply BitVec.eq_of_getElem_eq
  intro i hi
  obtain ⟨feature, -, hfeature⟩ := hindex ⟨i, hi⟩
  have hhas := h feature
  simp only [has, hfeature] at hhas
  exact hhas

theorem contains_iff (a b : FeatureMask) :
    a.contains b ↔ ∀ feature, b.has feature → a.has feature := by
  unfold contains
  rw [beq_iff_eq]
  constructor
  · intro hinter feature hb
    rw [← hinter, has_inter, Bool.and_eq_true] at hb
    exact hb.1
  · intro hsubset
    apply eq_of_has
    intro feature
    rw [has_inter, Bool.and_eq_right_iff_imp]
    exact hsubset feature

theorem has_union_iff (masks : List FeatureMask) (feature : Feature) :
    (union masks).has feature ↔ ∃ mask ∈ masks, mask.has feature := by
  induction masks with
  | nil => simp [union]
  | cons mask masks ih =>
    have hcons : union (mask :: masks) = mask ∪ union masks := rfl
    rw [hcons, has_union, Bool.or_eq_true, ih, List.exists_mem_cons_iff]

theorem union_contains_of_subset {masks masks' : List FeatureMask} (h : masks ⊆ masks') :
    (union masks').contains (union masks) := by
  rw [contains_iff]
  intro feature hhas
  rw [has_union_iff] at hhas ⊢
  obtain ⟨mask, hmem, hmask⟩ := hhas
  exact ⟨mask, h hmem, hmask⟩

theorem union_eq_of_mem_iff {masks masks' : List FeatureMask}
    (h : ∀ mask, mask ∈ masks ↔ mask ∈ masks') : union masks = union masks' := by
  apply eq_of_has
  intro feature
  rw [Bool.eq_iff_iff, has_union_iff, has_union_iff]
  simp only [h]

@[simp] theorem union_empty (mask : FeatureMask) : mask ∪ ∅ = mask := by
  apply eq_of_has
  intro feature
  rw [has_union, has_empty, Bool.or_false]

theorem union_append (masks masks' : List FeatureMask) :
    union (masks ++ masks') = union masks ∪ union masks' := by
  apply eq_of_has
  intro feature
  rw [Bool.eq_iff_iff, has_union, Bool.or_eq_true]
  simp only [has_union_iff, List.mem_append, or_and_right, exists_or]

theorem isEmpty_iff_has (mask : FeatureMask) :
    mask.isEmpty ↔ ∀ feature, mask.has feature = false := by
  unfold isEmpty
  rw [beq_iff_eq]
  constructor
  · rintro rfl
    exact has_empty
  · intro h
    apply eq_of_has
    intro feature
    rw [h feature]
    exact (has_empty feature).symm

theorem intersects_iff (a b : FeatureMask) :
    a.intersects b ↔ ∃ feature, a.has feature ∧ b.has feature := by
  unfold intersects
  rw [Bool.not_eq_true', ← Bool.not_eq_true, isEmpty_iff_has, not_forall]
  simp only [has_inter, Bool.not_eq_false, Bool.and_eq_true]

theorem intersects_union_iff (a b c : FeatureMask) :
    a.intersects (b ∪ c) ↔ a.intersects b ∨ a.intersects c := by
  simp only [intersects_iff, has_union, Bool.or_eq_true, and_or_left, exists_or]

theorem union_intersects_iff (masks : List FeatureMask) (b : FeatureMask) :
    (union masks).intersects b ↔ ∃ mask ∈ masks, mask.intersects b := by
  simp only [intersects_iff, has_union_iff]
  constructor
  · rintro ⟨feature, ⟨mask, hmem, hmask⟩, hb⟩
    exact ⟨mask, hmem, feature, hmask, hb⟩
  · rintro ⟨mask, hmem, feature, hmask, hb⟩
    exact ⟨feature, ⟨mask, hmem, hmask⟩, hb⟩

theorem intersects_all (mask : FeatureMask) : mask.intersects all = !mask.isEmpty := by
  have hinter : mask ∩ all = mask := congrArg FeatureMask.mk BitVec.and_allOnes
  unfold intersects
  rw [hinter]

theorem isEmpty_of_ofName? {name : String} {mask : FeatureMask} (h : ofName? name = some mask) :
    mask.isEmpty = false := by
  unfold ofName? at h
  split at h
  · cases h
    decide
  · obtain ⟨feature, -, rfl⟩ := Option.map_eq_some_iff.mp h
    cases feature <;> decide

theorem isEmpty_names_iff (names : List String) :
    (union (names.filterMap ofName?)).isEmpty ↔ ∀ name ∈ names, ofName? name = none := by
  induction names with
  | nil =>
    have hempty : (∅ : FeatureMask).isEmpty := by decide
    simpa [union] using hempty
  | cons name rest ih =>
    rw [List.forall_mem_cons, ← ih]
    cases hname : ofName? name with
    | none => simp [hname]
    | some mask =>
      have hunion : union ((name :: rest).filterMap ofName?) =
          mask ∪ union (rest.filterMap ofName?) := by
        rw [List.filterMap_cons_some hname]
        rfl
      rw [hunion, isEmpty_union_iff, isEmpty_of_ofName? hname]
      simp

end GpuRules.FeatureMask
