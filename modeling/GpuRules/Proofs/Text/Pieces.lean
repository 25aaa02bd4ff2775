import GpuRules.Criterion.Text
import GpuRules.Proofs.Text.Case

/-! What a criterion on texts finds. The value and the candidate are folded before they are
compared, but what is found is a piece of the candidate as it was given: one that is the value up
to the case of ASCII letters, and that stands where the operator wants it. -/

namespace GpuRules

def TextOperator.Places : TextOperator → List Char → List Char → Prop
  | .eq, before, after => before = [] ∧ after = []
  | .contains, _, _ => True
  | .beginWith, before, _ => before = []
  | .endWith, _, after => after = []

namespace TextCriterion

open Text (SameButCase foldCase foldCase_eq_append_iff foldCase_eq_iff occursIn_iff)

/-- The text is cut around a piece that is the value up to the case of ASCII letters. -/
structure Finds (op : TextOperator) (value : String) (text before piece after : List Char) :
    Prop where
  cut : text = before ++ piece ++ after
  same : SameButCase piece value.toList
  placed : op.Places before after

theorem contains_iff_cut (criterion : TextCriterion) (candidate : String) :
    criterion.contains candidate ↔
      ∃ before after, foldCase candidate.toList = before ++ criterion.value.toList ++ after ∧
        criterion.op.Places before after := by
  obtain ⟨op, value⟩ := criterion
  unfold contains
  cases op with
  | eq => simp [TextOperator.Places]
  | contains =>
    simp only [occursIn_iff, TextOperator.Places, and_true]
    exact exists₂_congr fun _ _ => eq_comm
  | beginWith =>
    simp only [List.isPrefixOf_iff_prefix, TextOperator.Places]
    constructor
    · rintro ⟨after, hafter⟩
      exact ⟨[], after, hafter.symm, rfl⟩
    · rintro ⟨_, after, hcut, rfl⟩
      exact ⟨after, hcut.symm⟩
  | endWith =>
    simp only [List.isSuffixOf_iff_suffix, TextOperator.Places]
    constructor
    · rintro ⟨before, hbefore⟩
      exact ⟨before, [], by rw [List.append_nil, hbefore], rfl⟩
    · rintro ⟨before, _, hcut, rfl⟩
      exact ⟨before, by rw [hcut, List.append_nil]⟩

/-- Folding shortens nothing, so a part of the text is empty just if it is once folded. -/
theorem places_foldCase_iff (op : TextOperator) (before after : List Char) :
    op.Places (foldCase before) (foldCase after) ↔ op.Places before after := by
  cases op <;> simp [TextOperator.Places, foldCase]

theorem contains_ofValue_iff (op : TextOperator) (value candidate : String) :
    (ofValue op value).contains candidate ↔
      ∃ before piece after, Finds op value candidate.toList before piece after := by
  have hvalue : (ofValue op value).value.toList = foldCase value.toList := String.toList_ofList
  rw [contains_iff_cut, hvalue]
  constructor
  · rintro ⟨_, _, hcut, hplaced⟩
    obtain ⟨before, piece, after, htext, rfl, hpiece, rfl⟩ := foldCase_eq_append_iff.mp hcut
    exact ⟨before, piece, after, htext, foldCase_eq_iff.mp hpiece,
      (places_foldCase_iff op before after).mp hplaced⟩
  · rintro ⟨before, piece, after, hcut, hsame, hplaced⟩
    refine ⟨foldCase before, foldCase after, ?_, (places_foldCase_iff op before after).mpr hplaced⟩
    exact foldCase_eq_append_iff.mpr
      ⟨before, piece, after, hcut, rfl, foldCase_eq_iff.mpr hsame, rfl⟩

theorem ofValue_congr {value value' : String} (h : SameButCase value.toList value'.toList)
    (op : TextOperator) : ofValue op value = ofValue op value' := by
  unfold ofValue
  rw [foldCase_eq_iff.mpr h]

theorem contains_congr {candidate candidate' : String}
    (h : SameButCase candidate.toList candidate'.toList) (criterion : TextCriterion) :
    criterion.contains candidate = criterion.contains candidate' := by
  unfold contains
  rw [foldCase_eq_iff.mpr h]

theorem contains_of_places {op op' : TextOperator}
    (h : ∀ before after, op.Places before after → op'.Places before after) {value candidate : String}
    (hcontains : (ofValue op value).contains candidate) :
    (ofValue op' value).contains candidate := by
  rw [contains_ofValue_iff] at hcontains ⊢
  obtain ⟨before, piece, after, hcut, hsame, hplaced⟩ := hcontains
  exact ⟨before, piece, after, hcut, hsame, h before after hplaced⟩

/-- A criterion is made of every operator and value, and contains the texts in which a piece that
is the value up to the case of ASCII letters stands where it should. So the case of ASCII letters
makes no difference, other characters have to be the very same, and an operator that allows more
places contains more. -/
theorem contains_finds_pieces (op : TextOperator) (value : String) :
    parse op.token value = .ok (ofValue op value) ∧
    (∀ candidate, (ofValue op value).contains candidate ↔
      ∃ before piece after, Finds op value candidate.toList before piece after) ∧
    (∀ value' candidate candidate', SameButCase value.toList value'.toList →
      SameButCase candidate.toList candidate'.toList →
      (ofValue op value).contains candidate = (ofValue op value').contains candidate') ∧
    (∀ text before piece after, Finds op value text before piece after →
      ∀ (i : Nat) (c : Char), ¬c.isAlpha → (piece[i]? = some c ↔ value.toList[i]? = some c)) ∧
    ∀ candidate,
      ((ofValue .eq value).contains candidate →
        (ofValue .beginWith value).contains candidate ∧
          (ofValue .endWith value).contains candidate) ∧
      ((ofValue .beginWith value).contains candidate →
        (ofValue .contains value).contains candidate) ∧
      ((ofValue .endWith value).contains candidate →
        (ofValue .contains value).contains candidate) := by
  refine ⟨?_, contains_ofValue_iff op value, ?_, ?_, ?_⟩
  · unfold parse
    rw [TextOperator.ofToken?_token]
  · intro value' candidate candidate' hvalue hcandidate
    rw [ofValue_congr hvalue, contains_congr hcandidate]
  · intro text before piece after hfinds i c hc
    exact hfinds.same.getElem?_eq_iff i hc
  · intro candidate
    refine ⟨fun h => ⟨contains_of_places ?_ h, contains_of_places ?_ h⟩,
      fun h => contains_of_places ?_ h, fun h => contains_of_places ?_ h⟩
    · exact fun before after hnone => hnone.1
    · exact fun before after hnone => hnone.2
    · exact fun before after _ => trivial
    · exact fun before after _ => trivial

/-- The value stands twice in the text, and the two places overlap. Only the letter with an accent
keeps its case. -/
theorem contains_finds_pieces_overlapping :
    let value := "raÀRA"
    let value' := "RAÀra"
    let candidate := "ATI raÀraÀRa"
    let candidate' := "ati RaÀrAÀra"
    (SameButCase value.toList value'.toList ∧ SameButCase candidate.toList candidate'.toList ∧
      (ofValue .endWith value).contains candidate =
        (ofValue .endWith value').contains candidate') ∧
      Finds .endWith value candidate.toList "ATI raÀ".toList "raÀRa".toList [] ∧
      ¬Char.isAlpha 'À' ∧ ("raÀRa".toList[2]? = some 'À' ↔ value.toList[2]? = some 'À') ∧
      (ofValue .endWith value).contains candidate ∧ (ofValue .contains value).contains candidate ∧
      (ofValue .endWith value).contains "ATI raÀraàRa" = false ∧
      (ofValue .eq value).contains value' ∧ (ofValue .beginWith value).contains value' ∧
      (ofValue .endWith value).contains value' ∧ (ofValue .contains value).contains value' := by
  intro value value' candidate candidate'
  obtain ⟨-, hcontains, hcase, hexact, hwider⟩ := contains_finds_pieces .endWith value
  obtain ⟨-, -, hend⟩ := hwider candidate
  obtain ⟨heq, hbegin, -⟩ := hwider value'
  have hvalue : SameButCase value.toList value'.toList := foldCase_eq_iff.mp (by decide)
  have hcandidate : SameButCase candidate.toList candidate'.toList :=
    foldCase_eq_iff.mp (by decide)
  have hfinds : Finds .endWith value candidate.toList "ATI raÀ".toList "raÀRa".toList [] :=
    ⟨by decide, foldCase_eq_iff.mp (by decide), rfl⟩
  have hends := (hcontains candidate).mpr ⟨_, _, _, hfinds⟩
  have hequal : (ofValue .eq value).contains value' := by decide
  exact ⟨⟨hvalue, hcandidate, hcase value' candidate candidate' hvalue hcandidate⟩, hfinds,
    by decide, hexact _ _ _ _ hfinds 2 'À' (by decide), hends, hend hends, by decide,
    hequal, (heq hequal).1, (heq hequal).2, hbegin (heq hequal).1⟩

end TextCriterion

end GpuRules
