import GpuRules.Binary
import Mathlib.Algebra.Order.Field.Basic
import Mathlib.Algebra.Order.Ring.Rat
import Mathlib.Data.Option.NAry
import Mathlib.Order.Compare
import Mathlib.Order.WithBot

/-! Binary numbers on the line of the rational numbers with an infinity at either end. All numbers
but NaN have a place there, both zeros the same one, and they compare as their places do. The lower
and the higher of two such numbers are the ends of what lies between them, whichever way round they
are given. -/

namespace GpuRules.Binary

variable {format : BinaryFormat}

def unitPlace (format : BinaryFormat) (units : ℤ) : WithBot (WithTop ℚ) :=
  ((units / format.one : ℚ) : WithTop ℚ)

def place? : Binary format → Option (WithBot (WithTop ℚ))
  | .nan => none
  | .infinity negative => some (if negative then ⊥ else ⊤)
  | .finite negative units => some (unitPlace format (signedUnits negative units))

theorem place?_eq_none_iff {x : Binary format} : x.place? = none ↔ x = .nan := by
  cases x <;> simp [place?]

theorem exists_place {x : Binary format} (h : x ≠ .nan) : ∃ u, x.place? = some u := by
  rw [← Option.ne_none_iff_exists']
  exact fun hnone => h (place?_eq_none_iff.mp hnone)

theorem unitPlace_lt_unitPlace {m n : ℤ} (h : m < n) :
    unitPlace format m < unitPlace format n := by
  have hone : (0 : ℚ) < format.one := by
    exact_mod_cast Nat.pow_pos (by decide : 0 < 2)
  unfold unitPlace
  rw [WithBot.coe_lt_coe, WithTop.coe_lt_coe, div_lt_div_iff_of_pos_right hone]
  exact_mod_cast h

theorem unitPlace_pos_infinity (units : ℤ) : unitPlace format units < ⊤ :=
  WithBot.coe_lt_coe.mpr (WithTop.coe_lt_top _)

theorem neg_infinity_unitPlace (units : ℤ) : ⊥ < unitPlace format units :=
  WithBot.bot_lt_coe _

theorem compare?_eq_map₂ (x y : Binary format) :
    compare? x y = Option.map₂ compare x.place? y.place? := by
  have hbelow {u v : WithBot (WithTop ℚ)} (h : u < v) : Ordering.lt = compare u v :=
    (compare_lt_iff_lt.mpr h).symm
  have habove {u v : WithBot (WithTop ℚ)} (h : v < u) : Ordering.gt = compare u v :=
    (compare_gt_iff_gt.mpr h).symm
  cases x with
  | nan => rfl
  | infinity a =>
    cases y with
    | nan => rfl
    | infinity b =>
      cases a <;> cases b
      · exact congrArg some (compare_eq_iff_eq.mpr rfl).symm
      · exact congrArg some (habove bot_lt_top)
      · exact congrArg some (hbelow bot_lt_top)
      · exact congrArg some (compare_eq_iff_eq.mpr rfl).symm
    | finite b n =>
      cases a
      · exact congrArg some (habove (unitPlace_pos_infinity _))
      · exact congrArg some (hbelow (neg_infinity_unitPlace _))
  | finite a m =>
    cases y with
    | nan => rfl
    | infinity b =>
      cases b
      · exact congrArg some (hbelow (unitPlace_pos_infinity _))
      · exact congrArg some (habove (neg_infinity_unitPlace _))
    | finite b n =>
      have hmono : StrictMono (unitPlace format) := fun _ _ => unitPlace_lt_unitPlace
      rw [compare?, place?, place?, Option.map₂_some_some, ← cmp_eq_compare, ← cmp_eq_compare,
        hmono.cmp_map_eq]

section Places

variable {x y : Binary format} {u v : WithBot (WithTop ℚ)}

theorem compare?_eq_some_iff {order : Ordering} : compare? x y = some order ↔
    ∃ u v, x.place? = some u ∧ y.place? = some v ∧ compare u v = order := by
  rw [compare?_eq_map₂, Option.map₂_eq_some_iff]
  rfl

theorem lt_iff_exists_places :
    x.lt y ↔ ∃ u v, x.place? = some u ∧ y.place? = some v ∧ u < v := by
  simp only [lt, beq_iff_eq, compare?_eq_some_iff, compare_lt_iff_lt]

theorem eq_iff_exists_places :
    x.eq y ↔ ∃ u v, x.place? = some u ∧ y.place? = some v ∧ u = v := by
  simp only [eq, beq_iff_eq, compare?_eq_some_iff, compare_eq_iff_eq]

theorem le_iff_exists_places :
    x.le y ↔ ∃ u v, x.place? = some u ∧ y.place? = some v ∧ u ≤ v := by
  rw [le, Bool.or_eq_true, lt_iff_exists_places, eq_iff_exists_places]
  simp only [le_iff_lt_or_eq, and_or_left, exists_or]

theorem lt_iff_of_places (hx : x.place? = some u) (hy : y.place? = some v) :
    x.lt y ↔ u < v := by
  simp [lt_iff_exists_places, hx, hy]

theorem le_iff_of_places (hx : x.place? = some u) (hy : y.place? = some v) :
    x.le y ↔ u ≤ v := by
  simp [le_iff_exists_places, hx, hy]

theorem le_eq_not_lt (hx : x ≠ .nan) (hy : y ≠ .nan) : x.le y = !y.lt x := by
  obtain ⟨u, hu⟩ := exists_place hx
  obtain ⟨v, hv⟩ := exists_place hy
  rw [Bool.eq_iff_iff, le_iff_of_places hu hv, Bool.not_eq_true', ← Bool.not_eq_true,
    lt_iff_of_places hv hu, not_lt]

theorem isNaN_of_place (hx : x.place? = some u) : x.isNaN = false := by
  cases x with
  | nan => cases hx
  | _ => rfl

theorem place?_lower (hx : x.place? = some u) (hy : y.place? = some v) :
    (x.lower y).place? = some (min u v) := by
  rw [lower, isNaN_of_place hx, if_neg Bool.false_ne_true]
  split
  next hlt =>
    rw [lt_iff_of_places hy hx] at hlt
    rw [hy, min_eq_right hlt.le]
  next hlt =>
    rw [lt_iff_of_places hy hx, not_lt] at hlt
    rw [hx, min_eq_left hlt]

theorem place?_higher (hx : x.place? = some u) (hy : y.place? = some v) :
    (x.higher y).place? = some (max u v) := by
  rw [higher, isNaN_of_place hx, if_neg Bool.false_ne_true]
  split
  next hlt =>
    rw [lt_iff_of_places hx hy] at hlt
    rw [hy, max_eq_right hlt.le]
  next hlt =>
    rw [lt_iff_of_places hx hy, not_lt] at hlt
    rw [hx, max_eq_left hlt]

end Places

/-! ### NaN has no place -/

@[simp] theorem lower_nan (x : Binary format) : x.lower .nan = x := by
  cases x <;> rfl

@[simp] theorem nan_lower (x : Binary format) : lower .nan x = x := rfl

@[simp] theorem higher_nan (x : Binary format) : x.higher .nan = x := by
  cases x <;> rfl

@[simp] theorem nan_higher (x : Binary format) : higher .nan x = x := rfl

@[simp] theorem lt_nan (x : Binary format) : x.lt .nan = false := by
  cases x <;> rfl

@[simp] theorem eq_nan (x : Binary format) : x.eq .nan = false := by
  cases x <;> rfl

@[simp] theorem le_nan (x : Binary format) : x.le .nan = false := by
  cases x <;> rfl

@[simp] theorem nan_lt (x : Binary format) : lt .nan x = false := rfl

@[simp] theorem nan_eq (x : Binary format) : eq .nan x = false := rfl

@[simp] theorem nan_le (x : Binary format) : le .nan x = false := rfl

theorem le_and_le_iff_eq (x y : Binary format) : y.le x ∧ x.le y ↔ x.eq y := by
  cases hx : x.place? with
  | none => simp [le_iff_exists_places, eq_iff_exists_places, hx]
  | some u =>
    cases hy : y.place? with
    | none => simp [le_iff_exists_places, eq_iff_exists_places, hy]
    | some v =>
      have heq : x.eq y ↔ v = u := by simp [eq_iff_exists_places, hx, hy]
      rw [heq, le_iff_of_places hx hy, le_iff_of_places hy hx, le_antisymm_iff]

end GpuRules.Binary
