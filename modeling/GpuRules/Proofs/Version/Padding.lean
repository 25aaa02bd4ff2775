import GpuRules.Version
import Mathlib.Data.List.Basic

/-! Versions continued by zeros. Their order does not see zeros at the end, so equal versions are
the same list but for those, and one may stand for the other as a bound. A version at the front of
another is a different matter: there every component that was written counts. What is compared with
a bound, by either test, may be continued by zeros all the same. -/

namespace GpuRules.Version

theorem compareValues_nil_left (right : List Nat) :
    compareValues [] right = if right.all (· == 0) then .eq else .lt := by
  cases right <;> rfl

theorem compareValues_nil_right (left : List Nat) :
    compareValues left [] = if left.all (· == 0) then .eq else .gt := by
  cases left <;> rfl

theorem compareValues_cons (a b : Nat) (left right : List Nat) :
    compareValues (a :: left) (b :: right) = (compare a b).then (compareValues left right) := rfl

theorem compareValues_swap (left right : List Nat) :
    (compareValues left right).swap = compareValues right left := by
  induction left generalizing right with
  | nil =>
    rw [compareValues_nil_left, compareValues_nil_right]
    split <;> rfl
  | cons a left ih =>
    cases right with
    | nil =>
      rw [compareValues_nil_left, compareValues_nil_right]
      split <;> rfl
    | cons b right =>
      rw [compareValues_cons, compareValues_cons, Ordering.swap_then, ih, Nat.compare_swap]

theorem compareValues_append_zeros (left right : List Nat) (n : Nat) :
    compareValues left (right ++ List.replicate n 0) = compareValues left right := by
  induction left generalizing right n with
  | nil => simp [compareValues_nil_left]
  | cons a left ih =>
    cases right with
    | cons b right => rw [List.cons_append, compareValues_cons, compareValues_cons, ih]
    | nil =>
      cases n with
      | zero => rfl
      | succ n =>
        have hrest := ih [] n
        rw [List.nil_append] at hrest
        rw [List.nil_append, List.replicate_succ, compareValues_cons, hrest,
          compareValues_nil_right, compareValues_nil_right, List.all_cons]
        cases a with
        | zero => rfl
        | succ a => simp [Nat.compare_eq_gt.mpr (Nat.succ_pos a)]

theorem eq_append_zeros {left right : List Nat} (h : compareValues left right = .eq)
    (hlength : left.length ≤ right.length) :
    right = left ++ List.replicate (right.length - left.length) 0 := by
  induction left generalizing right with
  | nil =>
    rw [compareValues_nil_left] at h
    have hzeros : right.all (· == 0) := by
      by_contra hnot
      simp [hnot] at h
    simp only [List.nil_append, List.length_nil, Nat.sub_zero]
    rw [List.eq_replicate_iff]
    exact ⟨rfl, by simpa using hzeros⟩
  | cons a left ih =>
    cases right with
    | nil => simp at hlength
    | cons b right =>
      rw [compareValues_cons, Ordering.then_eq_eq] at h
      obtain rfl := Nat.compare_eq_eq.mp h.1
      simpa using ih h.2 (by simpa using hlength)

theorem beginsValues_append (left bound candidate : List Nat) :
    beginsValues (left ++ bound) (left ++ candidate) = beginsValues bound candidate := by
  induction left with
  | nil => rfl
  | cons a left ih => simpa [beginsValues] using ih

theorem beq_iff {left right : Version} :
    left == right ↔ compareValues left.values right.values = .eq := by
  change (compareValues left.values right.values == .eq) = true ↔ _
  exact beq_iff_eq

theorem beq_comm {left right : Version} (h : left == right) : right == left := by
  rw [beq_iff] at h ⊢
  rw [← compareValues_swap, h]
  rfl

theorem length_values (version : Version) : version.values.length = version.components.length := by
  simp [values]

theorem compare_eq_of_beq {bound bound' : Version} (h : bound == bound') (candidate : Version) :
    compare candidate bound = compare candidate bound' := by
  change compareValues _ _ = compareValues _ _
  rcases Nat.le_total bound.values.length bound'.values.length with hle | hle
  · rw [eq_append_zeros (beq_iff.mp h) hle, compareValues_append_zeros]
  · rw [eq_append_zeros (beq_iff.mp (beq_comm h)) hle, compareValues_append_zeros]

theorem begins_eq_of_beq {bound bound' : Version} (h : bound == bound')
    (hlength : bound.components.length = bound'.components.length) (candidate : Version) :
    bound.begins candidate = bound'.begins candidate := by
  rw [← length_values, ← length_values] at hlength
  have hvalues := eq_append_zeros (beq_iff.mp h) (Nat.le_of_eq hlength)
  rw [hlength, Nat.sub_self, List.replicate_zero, List.append_nil] at hvalues
  unfold begins
  rw [hvalues]

theorem compare_candidate_eq_of_beq {candidate candidate' : Version} (h : candidate == candidate')
    (bound : Version) : compare candidate bound = compare candidate' bound := by
  have hswap (version : Version) : compare version bound = (compare bound version).swap :=
    (compareValues_swap bound.values version.values).symm
  rw [hswap, hswap, compare_eq_of_beq h bound]

theorem beginsValues_append_zeros (bound candidate : List Nat) (n : Nat) :
    beginsValues bound (candidate ++ List.replicate n 0) = beginsValues bound candidate := by
  induction bound generalizing candidate n with
  | nil => cases candidate <;> rfl
  | cons b bound ih =>
    cases candidate with
    | cons c candidate => simp only [List.cons_append, beginsValues, ih]
    | nil =>
      cases n with
      | zero => rfl
      | succ n =>
        have hrest := ih [] n
        rw [List.nil_append] at hrest
        simp only [List.nil_append, List.replicate_succ, beginsValues, hrest]

/-- Equal versions are begun by the same bounds, although equal bounds begin different versions. -/
theorem begins_candidate_eq_of_beq {candidate candidate' : Version} (h : candidate == candidate')
    (bound : Version) : bound.begins candidate = bound.begins candidate' := by
  unfold begins
  rcases Nat.le_total candidate.values.length candidate'.values.length with hle | hle
  · rw [eq_append_zeros (beq_iff.mp h) hle, beginsValues_append_zeros]
  · rw [eq_append_zeros (beq_iff.mp (beq_comm h)) hle, beginsValues_append_zeros]

theorem exists_begins_ne {bound bound' : Version} (h : bound == bound')
    (hlength : bound.components.length < bound'.components.length) :
    ∃ candidate : Version, bound.begins candidate ∧ bound'.begins candidate = false := by
  rw [← length_values, ← length_values] at hlength
  have hvalues := eq_append_zeros (beq_iff.mp h) (Nat.le_of_lt hlength)
  obtain ⟨zeros, hzeros⟩ : ∃ zeros, bound'.values.length - bound.values.length = zeros + 1 :=
    ⟨bound'.values.length - bound.values.length - 1, by omega⟩
  rw [hzeros] at hvalues
  -- Where the longer bound goes on with a zero, the candidate has a one.
  have hcandidate : (⟨bound.components ++ [1]⟩ : Version).values = bound.values ++ [1] := by
    simp [values]
  refine ⟨⟨bound.components ++ [1]⟩, ?_, ?_⟩
  · unfold begins
    rw [hcandidate]
    simpa [beginsValues] using beginsValues_append bound.values [] [1]
  · unfold begins
    rw [hcandidate, hvalues, beginsValues_append]
    rfl

end GpuRules.Version
