import GpuRules.Proofs.Version.Padding
import Mathlib.Data.List.DropRight

/-! Versions in order. Two of them compare as their components do in lexicographic order once the
zeros at the end are gone, so the order is total and transitive, and versions of which neither comes
before the other are equal. The first place where they differ decides, be it in the zeros that
continue the shorter one. -/

namespace GpuRules.Version

def trim (values : List Nat) : List Nat :=
  values.rdropWhile (· == 0)

theorem trim_cons (a : Nat) (values : List Nat) :
    trim (a :: values) = if a = 0 ∧ trim values = [] then [] else a :: trim values := by
  unfold trim List.rdropWhile
  rw [List.reverse_cons, List.dropWhile_append]
  cases hrest : values.reverse.dropWhile (· == 0) with
  | nil => cases a <;> simp
  | cons b rest => simp

theorem trim_eq_nil_iff (values : List Nat) : trim values = [] ↔ values.all (· == 0) := by
  unfold trim
  rw [List.rdropWhile_eq_nil_iff, List.all_eq_true]

theorem compareValues_nil_eq_compare_trim (values : List Nat) :
    compareValues [] values = compare [] (trim values) := by
  rw [compareValues_nil_left]
  cases htrim : trim values with
  | nil =>
    rw [trim_eq_nil_iff] at htrim
    rw [if_pos htrim]
    rfl
  | cons a rest =>
    have hzeros : ¬values.all (· == 0) := by
      rw [← trim_eq_nil_iff, htrim]
      exact List.cons_ne_nil a rest
    rw [if_neg hzeros]
    rfl

/-- A zero at the front of one list only counts if something follows it. -/
theorem compare_then_compare (a b : Nat) (left right : List Nat) :
    (compare a b).then (compare left right) =
      compare (if a = 0 ∧ left = [] then [] else a :: left)
        (if b = 0 ∧ right = [] then [] else b :: right) := by
  split <;> split
  next hleft hright =>
    rw [hleft.1, hleft.2, hright.1, hright.2]
    rfl
  next hleft hright =>
    obtain ⟨rfl, rfl⟩ := hleft
    cases b with
    | zero =>
      cases right with
      | nil => exact absurd ⟨rfl, rfl⟩ hright
      | cons c right => rfl
    | succ b => rfl
  next hleft hright =>
    obtain ⟨rfl, rfl⟩ := hright
    cases a with
    | zero =>
      cases left with
      | nil => exact absurd ⟨rfl, rfl⟩ hleft
      | cons c left => rfl
    | succ a => rfl
  next => exact List.compare_cons_cons.symm

theorem compareValues_eq_compare_trim (left right : List Nat) :
    compareValues left right = compare (trim left) (trim right) := by
  induction left generalizing right with
  | nil => exact compareValues_nil_eq_compare_trim right
  | cons a left ih =>
    cases right with
    | nil =>
      rw [← compareValues_swap, compareValues_nil_eq_compare_trim]
      exact Std.OrientedCmp.eq_swap.symm
    | cons b right => rw [compareValues_cons, ih, trim_cons, trim_cons, compare_then_compare]

theorem compareValues_append_zeros_left (left right : List Nat) (n : Nat) :
    compareValues (left ++ List.replicate n 0) right = compareValues left right := by
  rw [← compareValues_swap, compareValues_append_zeros, compareValues_swap]

theorem isLE_compareValues_cons_iff {a b : Nat} {left right : List Nat} :
    (compareValues (a :: left) (b :: right)).isLE ↔
      a < b ∨ a = b ∧ (compareValues left right).isLE := by
  rw [compareValues_cons, Ordering.isLE_then_iff_or, Nat.compare_eq_lt, Nat.compare_eq_eq]

theorem compareValues_cons_eq_lt_iff {a b : Nat} {left right : List Nat} :
    compareValues (a :: left) (b :: right) = .lt ↔
      a < b ∨ a = b ∧ compareValues left right = .lt := by
  rw [compareValues_cons, Ordering.then_eq_lt, Nat.compare_eq_lt, Nat.compare_eq_eq]

theorem isLE_compareValues_nil (values : List Nat) : (compareValues [] values).isLE := by
  rw [compareValues_nil_left]
  split <;> rfl

instance : Std.TransCmp compareValues where
  eq_swap := (compareValues_swap _ _).symm
  isLE_trans {left middle right} h h' := by
    -- How far a list is padded depends on the other. Without zeros at the end none is.
    rw [compareValues_eq_compare_trim] at h h' ⊢
    exact Std.TransCmp.isLE_trans h h'

theorem compare_eq_compareValues (left right : Version) :
    compare left right = compareValues left.values right.values := rfl

instance : Std.TransOrd Version where
  eq_swap := (compareValues_swap _ _).symm
  isLE_trans {left middle right} h h' :=
    Std.TransCmp.isLE_trans (a := left.values) (b := middle.values) (c := right.values) h h'

variable {a b c : Version}

theorem le_iff : a ≤ b ↔ (compare a b).isLE := Iff.rfl

theorem lt_iff : a < b ↔ compare a b = .lt := Iff.rfl

theorem not_lt : ¬a < b ↔ b ≤ a := by
  have hswap : compare b a = (compare a b).swap := Std.OrientedOrd.eq_swap
  rw [lt_iff, le_iff, hswap]
  cases compare a b <;> decide

theorem le_trans (h : a ≤ b) (h' : b ≤ c) : a ≤ c :=
  Std.TransOrd.isLE_trans h h'

theorem le_iff_ne_gt : a ≤ b ↔ compare a b ≠ .gt := by
  rw [le_iff]
  cases compare a b <;> decide

theorem gt_iff : a > b ↔ compare a b = .gt := by
  rw [gt_iff_lt, lt_iff]
  exact Std.OrientedCmp.gt_iff_lt.symm

theorem le_total (a b : Version) : a ≤ b ∨ b ≤ a := by
  rw [← not_lt (a := a)]
  by_cases hless : a < b
  · left
    rw [le_iff, lt_iff.mp hless]
    rfl
  · exact .inr hless

theorem compare_trans {order : Ordering} (h : compare a b = order) (h' : compare b c = order) :
    compare a c = order := by
  cases order with
  | lt => exact Std.TransCmp.lt_trans h h'
  | eq => exact Std.TransCmp.eq_trans h h'
  | gt => exact Std.TransCmp.gt_trans h h'

/-! ### Components without the zeros at the end -/

def significant (version : Version) : List UInt16 :=
  version.components.rdropWhile (· == 0)

theorem compare_toNat (a b : UInt16) : compare a.toNat b.toNat = compare a b := by
  change compareOfLessAndEq a.toNat b.toNat = compareOfLessAndEq a b
  unfold compareOfLessAndEq
  simp only [UInt16.lt_iff_toNat_lt, UInt16.toNat_inj]

theorem trim_values (version : Version) :
    trim version.values = version.significant.map UInt16.toNat := by
  have hzero : (fun value : Nat => value == 0) ∘ UInt16.toNat = (· == 0) := by
    funext component
    rw [Function.comp_apply, Bool.eq_iff_iff, beq_iff_eq, beq_iff_eq, ← UInt16.toNat_inj]
    rfl
  unfold trim significant values List.rdropWhile
  rw [← List.map_reverse, List.dropWhile_map, hzero, List.map_reverse]

theorem compareLex_map_toNat (left right : List UInt16) :
    List.compareLex compare (left.map UInt16.toNat) (right.map UInt16.toNat) =
      List.compareLex compare left right := by
  induction left generalizing right with
  | nil => cases right <;> rfl
  | cons a left ih =>
    cases right with
    | nil => rfl
    | cons b right => simp only [List.map_cons, List.compareLex_cons_cons, compare_toNat, ih]

theorem compare_eq_compareLex (left right : Version) :
    compare left right = List.compareLex compare left.significant right.significant := by
  rw [compare_eq_compareValues, compareValues_eq_compare_trim, trim_values, trim_values]
  exact compareLex_map_toNat _ _

def withZeros (version : Version) (n : Nat) : Version :=
  ⟨version.components ++ List.replicate n 0⟩

theorem values_withZeros (version : Version) (n : Nat) :
    (version.withZeros n).values = version.values ++ List.replicate n 0 := by
  simp [values, withZeros]

theorem compare_withZeros (left right : Version) (m n : Nat) :
    compare (left.withZeros m) (right.withZeros n) = compare left right := by
  rw [compare_eq_compareValues, values_withZeros, values_withZeros, compareValues_append_zeros,
    compareValues_append_zeros_left]
  rfl

/-! ### The first difference -/

theorem compareValues_eq_then (left right : List Nat) :
    compareValues left right =
      (compare (left.headD 0) (right.headD 0)).then (compareValues left.tail right.tail) := by
  cases left with
  | nil =>
    cases right with
    | nil => rfl
    | cons b right => cases b <;> simp [compareValues_nil_left, Nat.compare_eq_lt.mpr]
  | cons a left =>
    cases right with
    | nil => cases a <;> simp [compareValues_nil_right, Nat.compare_eq_gt.mpr]
    | cons b right => rfl

theorem compareValues_eq_find? {left right : List Nat} {n : Nat} (hleft : left.length ≤ n)
    (hright : right.length ≤ n) :
    compareValues left right =
      (((List.range n).map fun i => compare (left.getD i 0) (right.getD i 0)).find?
        Ordering.isNe).getD .eq := by
  induction n generalizing left right with
  | zero =>
    obtain rfl := List.length_eq_zero_iff.mp (Nat.le_zero.mp hleft)
    obtain rfl := List.length_eq_zero_iff.mp (Nat.le_zero.mp hright)
    rfl
  | succ n ih =>
    have hhead (values : List Nat) : values.getD 0 0 = values.headD 0 := by
      cases values <;> rfl
    have htail (values : List Nat) (i : Nat) :
        values.getD (i + 1) 0 = values.tail.getD i 0 := by
      cases values <;> rfl
    have hshorter {values : List Nat} (h : values.length ≤ n + 1) : values.tail.length ≤ n := by
      rw [List.length_tail]
      omega
    rw [compareValues_eq_then, ih (hshorter hleft) (hshorter hright), List.range_succ_eq_map,
      List.map_cons, List.map_map, List.find?_cons, hhead, hhead]
    simp only [Function.comp_def, Nat.succ_eq_add_one, htail]
    cases compare (left.headD 0) (right.headD 0) <;> rfl

theorem getD_values (version : Version) (i : Nat) :
    version.values.getD i 0 = (version.components.getD i 0).toNat := by
  rw [values, List.getD_eq_getElem?_getD, List.getD_eq_getElem?_getD, List.getElem?_map]
  cases version.components[i]? <;> rfl

theorem compare_eq_find? (left right : Version) :
    compare left right =
      (((List.range (max left.components.length right.components.length)).map fun i =>
        compare (left.components.getD i 0) (right.components.getD i 0)).find?
          Ordering.isNe).getD .eq := by
  rw [← length_values, ← length_values, compare_eq_compareValues,
    compareValues_eq_find? (Nat.le_max_left _ _) (Nat.le_max_right _ _)]
  simp only [getD_values, compare_toNat]

/-- The comparison of versions is a total order up to zeros at the end: the operators come from it,
and it is the lexicographic order of the components without those zeros. -/
theorem compare_total_up_to_zeros (a b c : Version) :
    compare a b =
      (((List.range (max a.components.length b.components.length)).map fun i =>
        compare (a.components.getD i 0) (b.components.getD i 0)).find? Ordering.isNe).getD .eq ∧
    compare a a = .eq ∧
    compare b a = (compare a b).swap ∧
    (∀ order, compare a b = order → compare b c = order → compare a c = order) ∧
    (a ≤ b → b ≤ c → a ≤ c) ∧
    (a ≤ b ∨ b ≤ a) ∧
    ((a == b ↔ compare a b = .eq) ∧ (a < b ↔ compare a b = .lt) ∧ (a ≤ b ↔ compare a b ≠ .gt) ∧
      (a > b ↔ compare a b = .gt) ∧ (a ≥ b ↔ compare a b ≠ .lt)) ∧
    (compare a b = .eq ↔ a.significant = b.significant) ∧
    compare a b = List.compareLex compare a.significant b.significant ∧
    ∀ m n, compare (a.withZeros m) (b.withZeros n) = compare a b := by
  refine ⟨compare_eq_find? a b, Std.ReflCmp.compare_self, Std.OrientedOrd.eq_swap,
    fun order => compare_trans, le_trans, le_total a b, ⟨beq_iff, lt_iff, le_iff_ne_gt, gt_iff, ?_⟩,
    ?_, compare_eq_compareLex a b, compare_withZeros a b⟩
  · rw [ge_iff_le, ← not_lt, lt_iff]
  · rw [compare_eq_compareLex]
    exact Std.LawfulEqCmp.compare_eq_iff_eq

/-- The second version only continues the first by zeros, and the third differs from it in the last
of them. -/
theorem compare_total_up_to_zeros_tenSix :
    let short : Version := ⟨[10, 6]⟩
    let long : Version := ⟨[10, 6, 0, 0]⟩
    let later : Version := ⟨[10, 6, 0, 1]⟩
    (compare short long = .eq ∧ compare long short = .eq ∧ compare short short = .eq) ∧
      short ≤ long ∧ long ≤ later ∧ short ≤ later := by
  intro short long later
  have hequal : compare short long = .eq := by decide
  have hequal' : compare long short = .eq := by decide
  have hbelow : short ≤ long := by decide
  have hbelow' : long ≤ later := by decide
  obtain ⟨-, -, -, htrans, -⟩ := compare_total_up_to_zeros short long short
  obtain ⟨-, -, -, -, hle, -⟩ := compare_total_up_to_zeros short long later
  exact ⟨⟨hequal, hequal', htrans .eq hequal hequal'⟩, hbelow, hbelow', hle hbelow hbelow'⟩

end GpuRules.Version
