import GpuRules.Text.Case
import Mathlib.Data.List.Forall2

/-! Texts that differ in nothing but the case of ASCII letters. Folding a text moves none of its
characters, so two texts fold to the same text just if they are such texts, and each piece of a
folded text is a piece of the text itself, folded. -/

namespace GpuRules.Text

/-- The same character, or an ASCII letter as a capital and as a small letter. -/
inductive SameLetter : Char → Char → Prop
  | refl (c : Char) : SameLetter c c
  | capital {c d : Char} : c.isUpper → d.toNat = c.toNat + 32 → SameLetter c d
  | small {c d : Char} : d.isUpper → c.toNat = d.toNat + 32 → SameLetter c d

abbrev SameButCase : List Char → List Char → Prop := List.Forall₂ SameLetter

theorem isUpper_iff_toNat {c : Char} : c.isUpper ↔ 65 ≤ c.toNat ∧ c.toNat ≤ 90 := by
  unfold Char.isUpper
  rw [decide_eq_true_iff]
  rfl

theorem isLower_iff_toNat {c : Char} : c.isLower ↔ 97 ≤ c.toNat ∧ c.toNat ≤ 122 := by
  unfold Char.isLower
  rw [Bool.and_eq_true, decide_eq_true_iff, decide_eq_true_iff]
  rfl

theorem toNat_toLower (c : Char) :
    c.toLower.toNat = if c.isUpper then c.toNat + 32 else c.toNat := by
  have hrange : c.isUpper ↔ c.val ≥ 'A'.val ∧ c.val ≤ 'Z'.val := by
    unfold Char.isUpper
    exact decide_eq_true_iff
  unfold Char.toLower
  split
  next hupper =>
    have hsmall := (isUpper_iff_toNat.mp (hrange.mpr hupper)).2
    have hgap : ('a'.val - 'A'.val).toNat = 32 := rfl
    rw [if_pos (hrange.mpr hupper), Char.toNat_mk, UInt32.toNat_add, hgap, Char.toNat_val]
    omega
  next hupper => rw [if_neg (hrange.not.mpr hupper)]

theorem toLower_eq_iff {c d : Char} : c.toLower = d.toLower ↔ SameLetter c d := by
  rw [← Char.toNat_inj, toNat_toLower, toNat_toLower]
  have hupper (c : Char) := isUpper_iff_toNat (c := c)
  constructor
  · intro h
    split at h <;> split at h
    · rw [Char.toNat_inj.mp (by omega : c.toNat = d.toNat)]
      exact .refl d
    · next hc _ => exact .capital hc h.symm
    · next _ hd => exact .small hd h
    · rw [Char.toNat_inj.mp h]
      exact .refl d
  · intro h
    cases h with
    | refl => rfl
    | capital hc hnext =>
      have hd : ¬d.isUpper := by
        rw [hupper] at hc ⊢
        omega
      rw [if_pos hc, if_neg hd, hnext]
    | small hd hnext =>
      have hc : ¬c.isUpper := by
        rw [hupper] at hd ⊢
        omega
      rw [if_pos hd, if_neg hc, hnext]

theorem SameLetter.symm {c d : Char} (h : SameLetter c d) : SameLetter d c :=
  toLower_eq_iff.mp (toLower_eq_iff.mpr h).symm

theorem SameLetter.eq_of_not_isAlpha {c d : Char} (h : SameLetter c d) (hc : ¬c.isAlpha) :
    c = d := by
  unfold Char.isAlpha at hc
  rw [Bool.or_eq_true, isUpper_iff_toNat, isLower_iff_toNat] at hc
  cases h with
  | refl => rfl
  | capital hupper => exact absurd (.inl (isUpper_iff_toNat.mp hupper)) hc
  | small hupper hnext =>
    have hrange := isUpper_iff_toNat.mp hupper
    exact absurd (.inr (by omega)) hc

theorem foldCase_eq_iff {left right : List Char} :
    foldCase left = foldCase right ↔ SameButCase left right := by
  have hletter : (fun c d : Char => c.toLower = d.toLower) = SameLetter := by
    funext c d
    exact propext toLower_eq_iff
  rw [← List.forall₂_eq_eq_eq, foldCase, foldCase, List.forall₂_map_left_iff,
    List.forall₂_map_right_iff, hletter]

theorem SameButCase.eq_of_not_isAlpha {left right : List Char} (h : SameButCase left right)
    (hright : ∀ c ∈ right, ¬c.isAlpha) : left = right := by
  induction h with
  | nil => rfl
  | cons hletter _ ih =>
    rw [List.forall_mem_cons] at hright
    rw [hletter.symm.eq_of_not_isAlpha hright.1, ih hright.2]

theorem SameButCase.getElem?_eq_iff {left right : List Char} (h : SameButCase left right) (i : Nat)
    {c : Char} (hc : ¬c.isAlpha) : left[i]? = some c ↔ right[i]? = some c := by
  induction h generalizing i with
  | nil => rfl
  | cons hletter _ ih =>
    cases i with
    | succ i => exact ih i
    | zero =>
      simp only [List.getElem?_cons_zero, Option.some.injEq]
      constructor
      · rintro rfl
        exact (hletter.eq_of_not_isAlpha hc).symm
      · rintro rfl
        exact (hletter.symm.eq_of_not_isAlpha hc).symm

theorem foldCase_foldCase (text : List Char) : foldCase (foldCase text) = foldCase text := by
  have hlower (c : Char) : c.toLower.toLower = c.toLower := by
    apply Char.toNat_inj.mp
    simp only [toNat_toLower, isUpper_iff_toNat]
    split_ifs <;> omega
  simp [foldCase, hlower]

theorem sameButCase_of_foldCase_eq {left right : List Char} (h : foldCase left = right) :
    SameButCase left right := by
  rw [← foldCase_eq_iff, ← h, foldCase_foldCase]

theorem foldCase_eq_append_iff {text before piece after : List Char} :
    foldCase text = before ++ piece ++ after ↔
      ∃ before' piece' after', text = before' ++ piece' ++ after' ∧
        foldCase before' = before ∧ foldCase piece' = piece ∧ foldCase after' = after := by
  unfold foldCase
  rw [List.map_eq_append_iff]
  constructor
  · rintro ⟨front, after', rfl, hfront, hafter⟩
    obtain ⟨before', piece', rfl, hbefore, hpiece⟩ := List.map_eq_append_iff.mp hfront
    exact ⟨before', piece', after', rfl, hbefore, hpiece, hafter⟩
  · rintro ⟨before', piece', after', rfl, rfl, rfl, rfl⟩
    exact ⟨before' ++ piece', after', rfl, List.map_append, rfl⟩

theorem occursIn_iff (piece text : List Char) : occursIn piece text ↔ piece <:+: text := by
  induction text with
  | nil => rw [occursIn, List.isEmpty_iff, List.infix_nil]
  | cons c rest ih =>
    rw [occursIn, Bool.or_eq_true, List.isPrefixOf_iff_prefix, ih, List.infix_cons_iff]

end GpuRules.Text
