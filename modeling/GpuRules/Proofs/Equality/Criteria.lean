import GpuRules.Criterion.Os
import GpuRules.Criterion.Score
import GpuRules.Proofs.Binary.Order
import GpuRules.Proofs.Version.Padding

/-! Equal criteria and what they contain. All that equal criteria can differ in is the number of
zeros at the end of a version and the sign of a zero score. The order sees neither, but a bound of
`=` shows the first: two equal version criteria contain the same versions unless both ask for
equality and were written with different numbers of components. -/

namespace GpuRules

inductive Comparison.Rel {α : Type} (related : α → α → Prop) : Comparison α → Comparison α → Prop
  | any : Rel related .any .any
  | eq {a b : α} : related a b → Rel related (.eq a) (.eq b)
  | lt {a b : α} : related a b → Rel related (.lt a) (.lt b)
  | le {a b : α} : related a b → Rel related (.le a) (.le b)
  | gt {a b : α} : related a b → Rel related (.gt a) (.gt b)
  | ge {a b : α} : related a b → Rel related (.ge a) (.ge b)
  | between {a b c d : α} : related a b → related c d → Rel related (.between a c) (.between b d)

theorem Comparison.rel_of_beq {α : Type} [BEq α] {test test' : Comparison α} (h : test == test') :
    Rel (fun a b => a == b) test test' := by
  change instBEqComparison.beq test test' = true at h
  unfold instBEqComparison.beq at h
  split at h
  · exact .any
  · exact .eq h
  · exact .lt h
  · exact .le h
  · exact .gt h
  · exact .ge h
  · rw [Bool.and_eq_true] at h
    exact .between h.1 h.2
  · cases h

namespace VersionCriterion

/-- If both criteria ask for equality, their bounds have as many components. -/
def SameWidth (criterion criterion' : VersionCriterion) : Prop :=
  ∀ bound bound', criterion.test = .eq bound → criterion'.test = .eq bound' →
    bound.components.length = bound'.components.length

theorem beq_iff {criterion criterion' : VersionCriterion} : criterion == criterion' ↔
    criterion.style = criterion'.style ∧ criterion.test == criterion'.test := by
  change (criterion.style == criterion'.style && criterion.test == criterion'.test) = true ↔ _
  rw [Bool.and_eq_true, beq_iff_eq]

theorem op_eq_of_beq {criterion criterion' : VersionCriterion} (h : criterion == criterion') :
    criterion.op = criterion'.op := by
  obtain ⟨style, test⟩ := criterion
  obtain ⟨style', test'⟩ := criterion'
  cases Comparison.rel_of_beq (beq_iff.mp h).2 <;> rfl

theorem contains_eq_of_beq {criterion criterion' : VersionCriterion} (h : criterion == criterion')
    (hwidth : criterion.SameWidth criterion') (candidate : Version) :
    criterion.contains candidate = criterion'.contains candidate := by
  obtain ⟨style, test⟩ := criterion
  obtain ⟨style', test'⟩ := criterion'
  unfold contains
  cases Comparison.rel_of_beq (beq_iff.mp h).2 with
  | any => rfl
  | eq hbound => exact Version.begins_eq_of_beq hbound (hwidth _ _ rfl rfl) candidate
  | lt hbound => exact congrArg Ordering.isLT (Version.compare_eq_of_beq hbound candidate)
  | le hbound => exact congrArg Ordering.isLE (Version.compare_eq_of_beq hbound candidate)
  | gt hbound => exact congrArg Ordering.isGT (Version.compare_eq_of_beq hbound candidate)
  | ge hbound => exact congrArg Ordering.isGE (Version.compare_eq_of_beq hbound candidate)
  | between hlow hhigh =>
    simp only [Version.compare_eq_of_beq hlow candidate, Version.compare_eq_of_beq hhigh candidate]

theorem contains_eq_iff_sameWidth {criterion criterion' : VersionCriterion}
    (h : criterion == criterion') :
    (∀ candidate, criterion.contains candidate = criterion'.contains candidate) ↔
      criterion.SameWidth criterion' := by
  constructor
  · intro hcontains bound bound' htest htest'
    have hbegins (candidate : Version) : bound.begins candidate = bound'.begins candidate := by
      simpa [contains, htest, htest'] using hcontains candidate
    have hbound : bound == bound' := by
      have htests := (beq_iff.mp h).2
      rwa [htest, htest'] at htests
    rcases Nat.lt_trichotomy bound.components.length bound'.components.length with
      hlt | heq | hgt
    · obtain ⟨candidate, hshort, hlong⟩ := Version.exists_begins_ne hbound hlt
      rw [hbegins candidate, hlong] at hshort
      cases hshort
    · exact heq
    · obtain ⟨candidate, hshort, hlong⟩ := Version.exists_begins_ne (Version.beq_comm hbound) hgt
      rw [← hbegins candidate, hlong] at hshort
      cases hshort
  · intro hwidth candidate
    exact contains_eq_of_beq h hwidth candidate

end VersionCriterion

theorem OsCriterion.contains_eq_of_beq {criterion criterion' : OsCriterion}
    (h : criterion == criterion') (hwidth : criterion.release.SameWidth criterion'.release)
    (os : OsType) (release : Option Version) :
    criterion.contains os release = criterion'.contains os release := by
  change (criterion.os == criterion'.os && criterion.release == criterion'.release) = true at h
  rw [Bool.and_eq_true, beq_iff_eq] at h
  unfold contains
  rw [h.1]
  cases release with
  | none => rw [VersionCriterion.op_eq_of_beq h.2]
  | some version => simp only [VersionCriterion.contains_eq_of_beq h.2 hwidth version]

theorem ScoreCriterion.contains_eq_of_beq {criterion criterion' : ScoreCriterion}
    (h : criterion == criterion') (score : Score) :
    criterion.contains score = criterion'.contains score := by
  obtain ⟨test⟩ := criterion
  obtain ⟨test'⟩ := criterion'
  change test == test' at h
  unfold contains
  cases Comparison.rel_of_beq h with
  | any => rfl
  | eq hbound => exact Binary.eq_right hbound score
  | lt hbound => exact Binary.lt_right hbound score
  | le hbound => exact Binary.le_right hbound score
  | gt hbound => exact Binary.lt_left hbound score
  | ge hbound => exact Binary.le_left hbound score
  | between hfirst hsecond =>
    simp only [Binary.le_left (Binary.lower_congr hfirst hsecond) score,
      Binary.le_right (Binary.higher_congr hfirst hsecond) score]

end GpuRules
