import GpuRules.Proofs.Binary.Line
import GpuRules.Proofs.Exceptions

/-! What criteria on scores contain. The bounds of `between` are put in order before the score is
compared, and of a bound that is NaN nothing is left but the other one. Comparisons themselves are
false of NaN. A score of zero, with either sign, was not measured, so a rule that asks for a score
does not apply however little it asks. -/

namespace GpuRules

namespace ScoreCriterion

variable {a b x : Score}

theorem contains_between_iff (ha : a ≠ .nan) (hb : b ≠ .nan) (x : Score) :
    contains ⟨.between a b⟩ x ↔ a.le x ∧ x.le b ∨ b.le x ∧ x.le a := by
  obtain ⟨u, hu⟩ := Binary.exists_place ha
  obtain ⟨v, hv⟩ := Binary.exists_place hb
  change ((a.lower b).le x && x.le (a.higher b)) = true ↔ _
  rw [Bool.and_eq_true]
  cases hx : x.place? with
  | none =>
    rw [Binary.place?_eq_none_iff.mp hx]
    simp
  | some w =>
    have hlower := Binary.place?_lower hu hv
    have hhigher := Binary.place?_higher hu hv
    rw [Binary.le_iff_of_places hlower hx, Binary.le_iff_of_places hx hhigher,
      Binary.le_iff_of_places hu hx, Binary.le_iff_of_places hx hv, Binary.le_iff_of_places hv hx,
      Binary.le_iff_of_places hx hu, min_le_iff, le_max_iff]
    grind

theorem contains_between_nan_left (b x : Score) :
    contains ⟨.between .nan b⟩ x = x.eq b := by
  rw [Bool.eq_iff_iff, ← Binary.le_and_le_iff_eq]
  simp [contains]

theorem contains_between_nan_right (a x : Score) :
    contains ⟨.between a .nan⟩ x = x.eq a := by
  rw [Bool.eq_iff_iff, ← Binary.le_and_le_iff_eq]
  simp [contains]

theorem contains_between_comm (a b x : Score) :
    contains ⟨.between a b⟩ x = contains ⟨.between b a⟩ x := by
  by_cases ha : a = .nan
  · rw [ha, contains_between_nan_left, contains_between_nan_right]
  by_cases hb : b = .nan
  · rw [hb, contains_between_nan_left, contains_between_nan_right]
  rw [Bool.eq_iff_iff, contains_between_iff ha hb, contains_between_iff hb ha]
  exact Or.comm

theorem contains_nan_iff (criterion : ScoreCriterion) :
    criterion.contains .nan ↔ criterion.test.op = .any := by
  obtain ⟨test⟩ := criterion
  cases test <;> simp [contains, Comparison.op]

theorem contains_ge_eq_not_lt {bound x : Score} (hx : x ≠ .nan) (hbound : bound ≠ .nan) :
    contains ⟨.ge bound⟩ x = !contains ⟨.lt bound⟩ x :=
  Binary.le_eq_not_lt hbound hx

theorem contains_gt_eq_not_le {bound x : Score} (hx : x ≠ .nan) (hbound : bound ≠ .nan) :
    contains ⟨.gt bound⟩ x = !contains ⟨.le bound⟩ x := by
  change bound.lt x = !x.le bound
  rw [Binary.le_eq_not_lt hx hbound, Bool.not_not]

theorem admits_zero (criterion : ScoreCriterion) (negative : Bool) :
    criterion.admits (.finite negative 0) = false :=
  rfl

end ScoreCriterion

/-- The criterion is what the conditions ask of that score. -/
inductive Conditions.Asks (conditions : Conditions) (scores : Scores) :
    ScoreCriterion → Score → Prop
  | graphics {criterion : ScoreCriterion} : conditions.perfGraphics = some criterion →
      Asks conditions scores criterion scores.graphics
  | gaming {criterion : ScoreCriterion} : conditions.perfGaming = some criterion →
      Asks conditions scores criterion scores.gaming
  | overall {criterion : ScoreCriterion} : conditions.perfOverall = some criterion →
      Asks conditions scores criterion scores.overall

theorem Conditions.Asks.exists_holds_eq {conditions : Conditions} {hardware : Hardware}
    {criterion : ScoreCriterion} {score : Score}
    (h : conditions.Asks hardware.scores criterion score) (os : OsType) :
    ∃ slot, conditions.holds os hardware slot = criterion.admits score := by
  cases h with
  | graphics hset => exact ⟨.perfGraphics, by rw [holds, hset, Option.all_some]⟩
  | gaming hset => exact ⟨.perfGaming, by rw [holds, hset, Option.all_some]⟩
  | overall hset => exact ⟨.perfOverall, by rw [holds, hset, Option.all_some]⟩

theorem Rule.appliesOn_eq_false_of_admits_eq_false {rule : Rule} {hardware : Hardware}
    {criterion : ScoreCriterion} {score : Score}
    (hasks : rule.conditions.Asks hardware.scores criterion score)
    (hfails : criterion.admits score = false) (os : OsType) :
    rule.appliesOn os hardware = false := by
  obtain ⟨slot, hslot⟩ := hasks.exists_holds_eq os
  exact appliesOn_eq_false_of_holds_eq_false (hslot.trans hfails)

namespace ScoreCriterion

/-- Scores compare as their places on the line do, so NaN with nothing and the zeros as equal. The
bounds of `between` may stand in either order, and next to NaN a bound contains what equals it. NaN
is contained by `any` alone, and between numbers `>=` is the opposite of `<` and `>` of `<=`. No
rule applies that asks anything at all of a score of zero. -/
theorem ranges_of_special_scores :
    (∀ x y : Score,
      (x.lt y ↔ ∃ u v, x.place? = some u ∧ y.place? = some v ∧ u < v) ∧
      (x.le y ↔ ∃ u v, x.place? = some u ∧ y.place? = some v ∧ u ≤ v) ∧
      (x.eq y ↔ ∃ u v, x.place? = some u ∧ y.place? = some v ∧ u = v)) ∧
    (∀ a b x, contains ⟨.between a b⟩ x = contains ⟨.between b a⟩ x) ∧
    (∀ a b, a ≠ .nan → b ≠ .nan → ∀ x,
      contains ⟨.between a b⟩ x ↔ a.le x ∧ x.le b ∨ b.le x ∧ x.le a) ∧
    (∀ a, a ≠ .nan → ∀ x, contains ⟨.between a .nan⟩ x = x.eq a ∧
      contains ⟨.between .nan a⟩ x = x.eq a) ∧
    (∀ x, contains ⟨.between .nan .nan⟩ x = false) ∧
    (∀ criterion, contains criterion .nan ↔ criterion.test.op = .any) ∧
    (∀ bound x, bound ≠ .nan → x ≠ .nan →
      contains ⟨.ge bound⟩ x = !contains ⟨.lt bound⟩ x ∧
      contains ⟨.gt bound⟩ x = !contains ⟨.le bound⟩ x) ∧
    ∀ (rule : Rule) (hardware : Hardware) (criterion : ScoreCriterion) (negative : Bool),
      rule.conditions.Asks hardware.scores criterion (.finite negative 0) →
      ∀ os, rule.appliesOn os hardware = false := by
  refine ⟨?_, contains_between_comm, ?_, ?_, ?_, contains_nan_iff, ?_, ?_⟩
  · intro x y
    exact ⟨Binary.lt_iff_exists_places, Binary.le_iff_exists_places, Binary.eq_iff_exists_places⟩
  · intro a b ha hb
    exact contains_between_iff ha hb
  · intro a _ x
    exact ⟨contains_between_nan_right a x, contains_between_nan_left a x⟩
  · intro x
    rw [contains_between_nan_left, Binary.eq_nan]
  · intro bound x hbound hx
    exact ⟨contains_ge_eq_not_lt hx hbound, contains_gt_eq_not_le hx hbound⟩
  · intro rule hardware criterion negative hasks
    exact Rule.appliesOn_eq_false_of_admits_eq_false hasks (criterion.admits_zero negative)

/-- The zeros lie between each other and a bound on either side, infinity is all there is between
itself and NaN, and a rule does not apply to a score of negative zero although it accepts any. -/
theorem ranges_of_special_scores_signedZeros :
    let zero : Score := .finite false 0
    let negativeZero : Score := .finite true 0
    let least : Score := .finite false 1
    let rule : Rule := { conditions := { perfGaming := some ⟨.any⟩ } }
    contains ⟨.between least negativeZero⟩ zero ∧
      contains ⟨.between negativeZero least⟩ zero ∧
      contains ⟨.between (.infinity false) .nan⟩ (.infinity false) ∧
      contains ⟨.between (.infinity false) .nan⟩ least = false ∧
      contains ⟨.between .nan .nan⟩ zero = false ∧
      contains ⟨.any⟩ .nan ∧
      contains ⟨.ge negativeZero⟩ zero ∧ contains ⟨.gt negativeZero⟩ zero = false ∧
      rule.appliesOn .linux { scores := { gaming := negativeZero } } = false := by
  intro zero negativeZero least rule
  obtain ⟨-, hcomm, hbetween, hnan, hnans, hany, hopposite, hzero⟩ := ranges_of_special_scores
  have hwithin : contains ⟨.between least negativeZero⟩ zero :=
    (hbetween least negativeZero (by decide) (by decide) zero).mpr (by decide)
  obtain ⟨hge, hgt⟩ := hopposite negativeZero zero (by decide) (by decide)
  refine ⟨hwithin, ?_, ?_, ?_, hnans zero, (hany _).mpr rfl, ?_, ?_, ?_⟩
  · rw [hcomm]
    exact hwithin
  · exact (hnan (.infinity false) (by decide) _).1.trans rfl
  · exact (hnan (.infinity false) (by decide) least).1.trans rfl
  · exact hge.trans rfl
  · exact hgt.trans rfl
  · exact hzero rule _ ⟨.any⟩ true (.gaming rfl) .linux

end ScoreCriterion

end GpuRules
