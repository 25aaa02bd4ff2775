import GpuRules.Proofs.Binary.Line

/-! Equal numbers are in the same order to every other number, although the two zeros are not the
same data: they have one place on the line. -/

namespace GpuRules.Binary

variable {format : BinaryFormat}

theorem place?_eq_of_eq {x y : Binary format} (h : x.eq y) : x.place? = y.place? := by
  obtain ⟨u, v, hx, hy, rfl⟩ := eq_iff_exists_places.mp h
  rw [hx, hy]

theorem eq_comm {x y : Binary format} (h : x.eq y) : y.eq x := by
  obtain ⟨u, v, hx, hy, huv⟩ := eq_iff_exists_places.mp h
  exact eq_iff_exists_places.mpr ⟨v, u, hy, hx, huv.symm⟩

theorem isNaN_of_eq {x y : Binary format} (h : x.eq y) : x.isNaN = false := by
  obtain ⟨u, v, hx, -, -⟩ := eq_iff_exists_places.mp h
  exact isNaN_of_place hx

theorem compare?_right {y y' : Binary format} (h : y.eq y') (x : Binary format) :
    compare? x y = compare? x y' := by
  rw [compare?_eq_map₂, compare?_eq_map₂, place?_eq_of_eq h]

theorem compare?_left {x x' : Binary format} (h : x.eq x') (y : Binary format) :
    compare? x y = compare? x' y := by
  rw [compare?_eq_map₂, compare?_eq_map₂, place?_eq_of_eq h]

section Congruence

variable {x x' y y' : Binary format}

theorem lt_congr (hx : x.eq x') (hy : y.eq y') : x.lt y = x'.lt y' := by
  unfold lt
  rw [compare?_left hx, compare?_right hy]

theorem eq_right (hy : y.eq y') (x : Binary format) : x.eq y = x.eq y' := by
  unfold eq
  rw [compare?_right hy]

theorem eq_left (hx : x.eq x') (y : Binary format) : x.eq y = x'.eq y := by
  unfold eq
  rw [compare?_left hx]

theorem lt_right (hy : y.eq y') (x : Binary format) : x.lt y = x.lt y' := by
  unfold lt
  rw [compare?_right hy]

theorem lt_left (hx : x.eq x') (y : Binary format) : x.lt y = x'.lt y := by
  unfold lt
  rw [compare?_left hx]

theorem le_right (hy : y.eq y') (x : Binary format) : x.le y = x.le y' := by
  unfold le
  rw [lt_right hy, eq_right hy]

theorem le_left (hx : x.eq x') (y : Binary format) : x.le y = x'.le y := by
  unfold le
  rw [lt_left hx, eq_left hx]

theorem lower_congr (hx : x.eq x') (hy : y.eq y') : (x.lower y).eq (x'.lower y') := by
  unfold lower
  rw [isNaN_of_eq hx, isNaN_of_eq (eq_comm hx), lt_congr hy hx]
  split
  · exact hy
  · split <;> assumption

theorem higher_congr (hx : x.eq x') (hy : y.eq y') : (x.higher y).eq (x'.higher y') := by
  unfold higher
  rw [isNaN_of_eq hx, isNaN_of_eq (eq_comm hx), lt_congr hx hy]
  split
  · exact hy
  · split <;> assumption

end Congruence

end GpuRules.Binary
