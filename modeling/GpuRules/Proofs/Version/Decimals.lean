import GpuRules.Conditions
import GpuRules.Proofs.Version.Interval
import GpuRules.Proofs.Version.Lexical
import Mathlib.Data.Rat.Floor
import Mathlib.Tactic.Linarith

/-! Lexical versions as decimal numbers. A text `major.digits` spread out into single digits
compares with another as the two numbers do that the texts denote, so it makes no difference that a
component could not hold the digits as one number. `=` compares as many decimals as its bound has.
-/

namespace GpuRules

open Text (digitValue digitValue_lt_ten numeral numeral_cons numeral_lt_pow)

/-- A number that is written with digits on both sides of a dot. Those before it fit a component. -/
structure DottedDecimal where
  major : List Char
  digits : List Char
  major_ne_nil : major ≠ []
  isDigit_major : ∀ digit ∈ major, digit.isDigit
  major_le : numeral 10 major ≤ 65535
  digits_ne_nil : digits ≠ []
  isDigit : ∀ digit ∈ digits, digit.isDigit

namespace DottedDecimal

def text (number : DottedDecimal) : String :=
  String.ofList (number.major ++ '.' :: number.digits)

def fraction (digits : List Char) : ℚ :=
  numeral 10 digits / 10 ^ digits.length

def value (number : DottedDecimal) : ℚ :=
  numeral 10 number.major + fraction number.digits

def truncate (places : Nat) (value : ℚ) : ℚ :=
  ⌊value * 10 ^ places⌋ / 10 ^ places

@[simp] theorem fraction_nil : fraction [] = 0 := by
  simp [fraction]

theorem fraction_cons (digit : Char) (digits : List Char) :
    fraction (digit :: digits) = (digitValue digit + fraction digits) / 10 := by
  unfold fraction
  rw [numeral_cons, List.length_cons, pow_succ]
  push_cast
  field_simp

theorem fraction_nonneg (digits : List Char) : 0 ≤ fraction digits := by
  unfold fraction
  positivity

theorem fraction_lt_one {digits : List Char} (h : ∀ digit ∈ digits, digit.isDigit) :
    fraction digits < 1 := by
  unfold fraction
  rw [div_lt_one (by positivity)]
  exact_mod_cast numeral_lt_pow h

/-! ### Order -/

theorem compare_then_compare_eq (m n : Nat) {x y : ℚ} (hx : 0 ≤ x ∧ x < 1) (hy : 0 ≤ y ∧ y < 1) :
    (compare m n).then (compare x y) = compare (m + x) (n + y) := by
  rcases Nat.lt_trichotomy m n with hlt | rfl | hgt
  · have hnext : (m : ℚ) + 1 ≤ n := by exact_mod_cast hlt
    rw [Nat.compare_eq_lt.mpr hlt, compare_lt_iff_lt.mpr (by linarith : (m : ℚ) + x < n + y)]
    rfl
  · rw [Nat.compare_eq_eq.mpr rfl]
    rcases lt_trichotomy x y with hlt | rfl | hgt
    · rw [compare_lt_iff_lt.mpr hlt, compare_lt_iff_lt.mpr (by linarith : (m : ℚ) + x < m + y)]
      rfl
    · rw [compare_eq_iff_eq.mpr rfl, compare_eq_iff_eq.mpr rfl]
      rfl
    · rw [compare_gt_iff_gt.mpr hgt, compare_gt_iff_gt.mpr (by linarith : (m : ℚ) + y < m + x)]
      rfl
  · have hnext : (n : ℚ) + 1 ≤ m := by exact_mod_cast hgt
    rw [Nat.compare_eq_gt.mpr hgt, compare_gt_iff_gt.mpr (by linarith : (n : ℚ) + y < m + x)]
    rfl

theorem compare_div_ten (x y : ℚ) : compare (x / 10) (y / 10) = compare x y := by
  rcases lt_trichotomy x y with hlt | rfl | hgt
  · rw [compare_lt_iff_lt.mpr hlt, compare_lt_iff_lt.mpr (by linarith : x / 10 < y / 10)]
  · rw [compare_eq_iff_eq.mpr rfl, compare_eq_iff_eq.mpr rfl]
  · rw [compare_gt_iff_gt.mpr hgt, compare_gt_iff_gt.mpr (by linarith : y / 10 < x / 10)]

variable {digits digits' : List Char}

theorem compareValues_nil_digits (hdigits : ∀ digit ∈ digits, digit.isDigit) :
    Version.compareValues [] (digits.map digitValue) = compare 0 (fraction digits) := by
  induction digits with
  | nil => exact (compare_eq_iff_eq.mpr fraction_nil.symm).symm
  | cons digit digits ih =>
    rw [List.forall_mem_cons] at hdigits
    have hzero : (0 : ℚ) = ((0 : ℕ) + 0) / 10 := by norm_num
    rw [← Version.compareValues_append_zeros_left [] _ 1, hzero, fraction_cons, compare_div_ten,
      ← compare_then_compare_eq _ _ ⟨le_rfl, one_pos⟩
        ⟨fraction_nonneg digits, fraction_lt_one hdigits.2⟩, ← ih hdigits.2]
    rfl

theorem compareValues_digits (hdigits : ∀ digit ∈ digits, digit.isDigit)
    (hdigits' : ∀ digit ∈ digits', digit.isDigit) :
    Version.compareValues (digits.map digitValue) (digits'.map digitValue) =
      compare (fraction digits) (fraction digits') := by
  induction digits generalizing digits' with
  | nil =>
    rw [fraction_nil]
    exact compareValues_nil_digits hdigits'
  | cons digit digits ih =>
    -- What comes after a digit is worth less than one more of it, so the first digits decide.
    cases digits' with
    | nil =>
      rw [fraction_nil, ← Version.compareValues_swap, Std.OrientedOrd.eq_swap]
      exact congrArg Ordering.swap (compareValues_nil_digits hdigits)
    | cons digit' digits' =>
      rw [List.forall_mem_cons] at hdigits hdigits'
      rw [List.map_cons, List.map_cons, Version.compareValues_cons, ih hdigits.2 hdigits'.2,
        compare_then_compare_eq _ _ ⟨fraction_nonneg _, fraction_lt_one hdigits.2⟩
          ⟨fraction_nonneg _, fraction_lt_one hdigits'.2⟩,
        fraction_cons, fraction_cons, compare_div_ten]

/-! ### Cutting off -/

theorem floor_eq_iff_of_parts (m n : Nat) {places rest : Nat} {x : ℚ} (hx : 0 ≤ x ∧ x < 1)
    (hrest : rest < 10 ^ places) :
    ⌊(n + x) * 10 ^ places⌋ = ((m * 10 ^ places + rest : ℕ) : ℤ) ↔
      m = n ∧ ⌊x * 10 ^ places⌋ = (rest : ℤ) := by
  have hpower : (0 : ℚ) < 10 ^ places := by positivity
  have hsplit : (n + x) * 10 ^ places = ((n * 10 ^ places : ℕ) : ℚ) + x * 10 ^ places := by
    push_cast
    ring
  have hnonneg : 0 ≤ ⌊x * 10 ^ places⌋ := Int.floor_nonneg.mpr (mul_nonneg hx.1 hpower.le)
  have hbelow : ⌊x * 10 ^ places⌋ < ((10 ^ places : ℕ) : ℤ) := by
    rw [Int.floor_lt]
    push_cast
    exact mul_lt_of_lt_one_left hpower hx.2
  rw [hsplit, Int.floor_natCast_add]
  generalize ⌊x * 10 ^ places⌋ = cut at hnonneg hbelow
  lift cut to ℕ using hnonneg
  norm_cast at hbelow ⊢
  -- Both sides are quotient and remainder of one number by a power of ten.
  constructor
  · intro hequal
    have hpositive : 0 < 10 ^ places := Nat.pow_pos (by decide)
    obtain ⟨hquotient, hremainder⟩ := (Nat.div_mod_unique hpositive).mpr
      ⟨Nat.add_comm cut (10 ^ places * n), hbelow⟩
    obtain ⟨hquotient', hremainder'⟩ := (Nat.div_mod_unique hpositive).mpr
      ⟨Nat.add_comm rest (10 ^ places * m), hrest⟩
    rw [Nat.mul_comm n, Nat.mul_comm m] at hequal
    rw [hequal] at hquotient hremainder
    exact ⟨hquotient'.symm.trans hquotient, hremainder.symm.trans hremainder'⟩
  · rintro ⟨rfl, rfl⟩
    rfl

theorem beginsValues_digits_iff (hdigits : ∀ digit ∈ digits, digit.isDigit)
    (hdigits' : ∀ digit ∈ digits', digit.isDigit) :
    Version.beginsValues (digits.map digitValue) (digits'.map digitValue) ↔
      ⌊fraction digits' * 10 ^ digits.length⌋ = (numeral 10 digits : ℤ) := by
  induction digits generalizing digits' with
  | nil =>
    have hcut : ⌊fraction digits' * 10 ^ 0⌋ = 0 := by
      rw [pow_zero, mul_one, Int.floor_eq_zero_iff]
      exact ⟨fraction_nonneg digits', fraction_lt_one hdigits'⟩
    simpa [Version.beginsValues] using hcut
  | cons digit digits ih =>
    rw [List.forall_mem_cons] at hdigits
    have hcons (other : Char) {others : List Char} (hothers : ∀ digit ∈ others, digit.isDigit) :
        Version.beginsValues ((digit :: digits).map digitValue) ((other :: others).map digitValue) ↔
          ⌊fraction (other :: others) * 10 ^ (digit :: digits).length⌋ =
            (numeral 10 (digit :: digits) : ℤ) := by
      have hscaled : fraction (other :: others) * 10 ^ (digit :: digits).length =
          (digitValue other + fraction others) * 10 ^ digits.length := by
        rw [fraction_cons, List.length_cons, pow_succ]
        ring
      rw [hscaled, numeral_cons, floor_eq_iff_of_parts _ _
        ⟨fraction_nonneg others, fraction_lt_one hothers⟩ (numeral_lt_pow hdigits.2),
        ← ih hdigits.2 hothers]
      simp [Version.beginsValues]
    cases digits' with
    | nil =>
      -- No digit at all is worth as much as a zero.
      have hworth : digitValue '0' = 0 := rfl
      have hzero : fraction [] = fraction ['0'] := by
        rw [fraction_cons, fraction_nil, hworth]
        norm_num
      rw [hzero, List.map_nil, ← Version.beginsValues_append_zeros _ [] 1]
      exact hcons '0' hdigits'
    | cons other others =>
      rw [List.forall_mem_cons] at hdigits'
      exact hcons other hdigits'.2

/-! ### Texts -/

def component (number : DottedDecimal) : UInt16 :=
  UInt16.ofNat (numeral 10 number.major)

theorem spells (number : DottedDecimal) :
    Version.SpellsComponent number.major number.component where
  nonempty := number.major_ne_nil
  digits := number.isDigit_major
  value := (UInt16.toNat_ofNat_of_lt' (Nat.lt_succ_of_le number.major_le)).symm

def version (number : DottedDecimal) : Version :=
  ⟨number.component :: number.digits.map Version.digitComponent⟩

theorem read_text (number : DottedDecimal) :
    VersionStyle.lexical.read number.text = .ok number.version :=
  VersionStyle.read_lexical String.toList_ofList number.spells number.digits_ne_nil number.isDigit

theorem values_version (number : DottedDecimal) :
    number.version.values = numeral 10 number.major :: number.digits.map digitValue := by
  rw [number.spells.value]
  exact Version.values_digitComponents number.isDigit number.component

theorem compare_version (number other : DottedDecimal) :
    compare number.version other.version = compare number.value other.value := by
  rw [Version.compare_eq_compareValues, values_version, values_version,
    Version.compareValues_cons, compareValues_digits number.isDigit other.isDigit]
  exact compare_then_compare_eq _ _ ⟨fraction_nonneg _, fraction_lt_one number.isDigit⟩
    ⟨fraction_nonneg _, fraction_lt_one other.isDigit⟩

theorem truncate_eq_value_iff (bound : DottedDecimal) (x : ℚ) :
    truncate bound.digits.length x = bound.value ↔
      ⌊x * 10 ^ bound.digits.length⌋ = ((numeral 10 bound.major * 10 ^ bound.digits.length +
        numeral 10 bound.digits : ℕ) : ℤ) := by
  have hpower : (10 : ℚ) ^ bound.digits.length ≠ 0 := by positivity
  have hscaled : bound.value * 10 ^ bound.digits.length =
      ((numeral 10 bound.major * 10 ^ bound.digits.length +
        numeral 10 bound.digits : ℕ) : ℤ) := by
    unfold value fraction
    rw [add_mul, div_mul_cancel₀ _ hpower]
    push_cast
    rfl
  unfold truncate
  rw [div_eq_iff hpower, hscaled, Int.cast_inj]

theorem begins_version_iff (bound candidate : DottedDecimal) :
    bound.version.begins candidate.version ↔
      truncate bound.digits.length candidate.value = bound.value := by
  rw [truncate_eq_value_iff, value, floor_eq_iff_of_parts _ _
    ⟨fraction_nonneg _, fraction_lt_one candidate.isDigit⟩ (numeral_lt_pow bound.isDigit),
    ← beginsValues_digits_iff bound.isDigit candidate.isDigit]
  unfold Version.begins
  rw [values_version, values_version]
  simp [Version.beginsValues]

/-! ### Criteria -/

/-- Whether a number passes a comparison with numbers, of which `=` looks at the decimals that its
bound has. -/
def Satisfies (candidate : DottedDecimal) : Comparison DottedDecimal → Prop
  | .any => True
  | .eq bound => truncate bound.digits.length candidate.value = bound.value
  | .lt bound => candidate.value < bound.value
  | .le bound => candidate.value ≤ bound.value
  | .gt bound => bound.value < candidate.value
  | .ge bound => bound.value ≤ candidate.value
  | .between low high => low.value ≤ candidate.value ∧ candidate.value ≤ high.value

/-- The texts of the bounds that a comparison has. Where it has none the text may be anything. -/
def SpelledBy (number number2 : String) : Comparison DottedDecimal → Prop
  | .any => True
  | .eq bound | .lt bound | .le bound | .gt bound | .ge bound => number = bound.text
  | .between low high => number = low.text ∧ number2 = high.text

def criterion (test : Comparison DottedDecimal) : VersionCriterion :=
  ⟨.lexical, test.map version⟩

theorem ofBounds_eq_map {test : Comparison DottedDecimal} {number number2 : String}
    (h : SpelledBy number number2 test) :
    Comparison.ofBounds test.op (VersionStyle.lexical.read number)
      (VersionStyle.lexical.read number2) = .ok (test.map version) := by
  have hspelled : test.Spelled (fun text bound => text = bound.text) number number2 := by
    cases test <;> exact h
  apply Comparison.ofBounds_of_spelled _ hspelled
  rintro text bound rfl
  exact bound.read_text

theorem parse_eq_criterion {test : Comparison DottedDecimal} {number number2 : String}
    (h : SpelledBy number number2 test) :
    VersionCriterion.parse test.op.token "lexical" number number2 = .ok (criterion test) :=
  VersionCriterion.build_of_ofBounds rfl (ofBounds_eq_map h)

theorem contains_criterion_iff (test : Comparison DottedDecimal) (candidate : DottedDecimal) :
    (criterion test).contains candidate.version ↔ candidate.Satisfies test := by
  have hlt (a b : DottedDecimal) : a.version < b.version ↔ a.value < b.value := by
    rw [Version.lt_iff, compare_version, compare_lt_iff_lt]
  have hle (a b : DottedDecimal) : a.version ≤ b.version ↔ a.value ≤ b.value := by
    rw [Version.le_iff, compare_version, Ordering.isLE_iff_ne_gt]
    exact compare_le_iff_le
  cases test with
  | any => exact iff_of_true rfl trivial
  | eq bound => exact begins_version_iff bound candidate
  | lt bound => exact (VersionCriterion.contains_lt_iff ..).trans (hlt ..)
  | le bound => exact (VersionCriterion.contains_le_iff ..).trans (hle ..)
  | gt bound => exact (VersionCriterion.contains_gt_iff ..).trans (hlt ..)
  | ge bound => exact (VersionCriterion.contains_ge_iff ..).trans (hle ..)
  | between low high =>
    exact (VersionCriterion.contains_between_iff ..).trans (and_congr (hle ..) (hle ..))

/-- A lexical criterion and a driver version of the form `major.digits` are both read, and the one
contains the other just if the numbers compare that way. -/
theorem lexical_contains_iff_satisfies (test : Comparison DottedDecimal) (number number2 : String)
    (h : SpelledBy number number2 test) :
    ∃ criterion,
      VersionCriterion.parse test.op.token "lexical" number number2 = .ok criterion ∧
      ∀ candidate : DottedDecimal,
        (∃ version, criterion.style.read candidate.text = .ok version ∧
          (criterion.contains version ↔ candidate.Satisfies test)) ∧
        ∀ (conditions : Conditions) (os : OsType) (hardware : Hardware),
          conditions.driverVersion = some criterion → hardware.driverVersion = candidate.text →
          (conditions.holds os hardware .driverVersion ↔ candidate.Satisfies test) := by
  refine ⟨criterion test, parse_eq_criterion h, ?_⟩
  intro candidate
  have hcontains := contains_criterion_iff test candidate
  refine ⟨⟨candidate.version, candidate.read_text, hcontains⟩, ?_⟩
  intro conditions os hardware hconditions hdriver
  have hread : (criterion test).style.read hardware.driverVersion = .ok candidate.version := by
    rw [hdriver]
    exact candidate.read_text
  unfold Conditions.holds
  rw [hconditions, Option.all_some, hread]
  exact hcontains

def eightPoint (digits : List Char) (hne : digits ≠ []) (hall : digits.all Char.isDigit) :
    DottedDecimal where
  major := ['8']
  digits := digits
  major_ne_nil := List.cons_ne_nil _ _
  isDigit_major := List.forall_mem_singleton.mpr rfl
  major_le := by decide
  digits_ne_nil := hne
  isDigit := List.all_eq_true.mp hall

/-- Seven digits are too many for one component. -/
theorem lexical_contains_iff_satisfies_eightPoint :
    let low := eightPoint ['1', '7'] (List.cons_ne_nil _ _) rfl
    let high := eightPoint ['1', '7', '0', '0', '0', '0', '1'] (List.cons_ne_nil _ _) rfl
    let candidate := eightPoint ['1', '7', '0'] (List.cons_ne_nil _ _) rfl
    let hardware : Hardware := { driverVersion := "8.170" }
    SpelledBy "8.17" "8.1700001" (.between low high) ∧ candidate.text = "8.170" ∧
      candidate.Satisfies (.between low high) ∧
      ∃ criterion, VersionCriterion.parse "between" "lexical" "8.17" "8.1700001" = .ok criterion ∧
        (∃ version, criterion.style.read "8.170" = .ok version ∧ criterion.contains version) ∧
        Conditions.holds { driverVersion := some criterion } .linux hardware .driverVersion := by
  intro low high candidate hardware
  have hspelled : SpelledBy "8.17" "8.1700001" (.between low high) := ⟨rfl, rfl⟩
  have hsatisfies : candidate.Satisfies (.between low high) := by
    change ((8 : ℕ) : ℚ) + (17 : ℕ) / 10 ^ 2 ≤ (8 : ℕ) + (170 : ℕ) / 10 ^ 3 ∧
      ((8 : ℕ) : ℚ) + (170 : ℕ) / 10 ^ 3 ≤ (8 : ℕ) + (1700001 : ℕ) / 10 ^ 7
    norm_num
  obtain ⟨criterion, hparse, hcandidates⟩ :=
    lexical_contains_iff_satisfies (.between low high) "8.17" "8.1700001" hspelled
  obtain ⟨⟨version, hread, hcontains⟩, hholds⟩ := hcandidates candidate
  exact ⟨hspelled, rfl, hsatisfies, criterion, hparse,
    ⟨version, hread, hcontains.mpr hsatisfies⟩,
    (hholds { driverVersion := some criterion } .linux hardware rfl rfl).mpr hsatisfies⟩

end DottedDecimal

end GpuRules
