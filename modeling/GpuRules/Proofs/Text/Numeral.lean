import GpuRules.Text.Digits
import Mathlib.Data.List.Induction
import Mathlib.Tactic.Ring

/-! Numbers written out in digits and read back, and digits read as a number and written out again,
which loses the zeros at their front and nothing else. -/

namespace GpuRules

namespace Text

theorem digitValue_digitChar {digit : Nat} (h : digit < 16) :
    digitValue digit.digitChar = digit := by
  revert digit
  decide

theorem isHexDigit_digitChar {digit : Nat} (h : digit < 16) : isHexDigit digit.digitChar := by
  revert digit
  decide

variable {base : Nat}

theorem foldl_numeral (base value : Nat) (digits : List Char) :
    digits.foldl (fun value digit => value * base + digitValue digit) value =
      value * base ^ digits.length + numeral base digits := by
  induction digits generalizing value with
  | nil => simp
  | cons digit digits ih =>
    have hcons : numeral base (digit :: digits) =
        digits.foldl (fun value digit => value * base + digitValue digit) (digitValue digit) := by
      simp [numeral]
    rw [hcons, List.foldl_cons, ih, ih (digitValue digit), List.length_cons, pow_succ]
    ring

theorem numeral_cons (base : Nat) (digit : Char) (digits : List Char) :
    numeral base (digit :: digits) =
      digitValue digit * base ^ digits.length + numeral base digits := by
  rw [← foldl_numeral]
  simp [numeral]

theorem toNat_eq_of_isDigit {digit : Char} (h : digit.isDigit) :
    digit.toNat = 48 + digitValue digit ∧ digitValue digit < 10 := by
  have hvalue : digitValue digit = digit.toNat - 48 := if_pos h
  have hrange : 48 ≤ digit.toNat ∧ digit.toNat ≤ 57 := Char.isDigit_iff_toNat.mp h
  omega

theorem digitValue_lt_ten {digit : Char} (h : digit.isDigit) : digitValue digit < 10 :=
  (toNat_eq_of_isDigit h).2

theorem numeral_lt_pow {digits : List Char} (h : ∀ digit ∈ digits, digit.isDigit) :
    numeral 10 digits < 10 ^ digits.length := by
  induction digits with
  | nil => simp
  | cons digit digits ih =>
    rw [List.forall_mem_cons] at h
    have hfirst := digitValue_lt_ten h.1
    have hrest := ih h.2
    have hscaled : digitValue digit * 10 ^ digits.length ≤ 9 * 10 ^ digits.length :=
      Nat.mul_le_mul_right _ (by omega)
    rw [numeral_cons, List.length_cons, pow_succ]
    omega

theorem numeral_toDigits (hlow : 1 < base) (hhigh : base ≤ 16) (n : Nat) :
    numeral base (Nat.toDigits base n) = n := by
  induction n using Nat.strong_induction_on with
  | _ n ih =>
    rw [Nat.toDigits_eq_if hlow]
    split
    · next hdigit =>
      have hvalue := digitValue_digitChar (by omega : n < 16)
      simp [numeral, hvalue]
    · next hlarge =>
      have hshorter : n / base < n := Nat.div_lt_self (by omega) hlow
      have hlast : n % base < base := Nat.mod_lt n (by omega)
      rw [numeral_concat, ih (n / base) hshorter, digitValue_digitChar (by omega)]
      exact Nat.div_add_mod' n base

theorem isHexDigit_of_mem_toDigits (hlow : 1 < base) (hhigh : base ≤ 16) {n : Nat} {c : Char}
    (h : c ∈ Nat.toDigits base n) : isHexDigit c := by
  induction n using Nat.strong_induction_on with
  | _ n ih =>
    rw [Nat.toDigits_eq_if hlow] at h
    split at h
    · next hdigit =>
      obtain rfl := List.mem_singleton.mp h
      exact isHexDigit_digitChar (by omega)
    · next hlarge =>
      have hshorter : n / base < n := Nat.div_lt_self (by omega) hlow
      have hlast : n % base < base := Nat.mod_lt n (by omega)
      rcases List.mem_append.mp h with hrest | hmem
      · exact ih (n / base) hshorter hrest
      · obtain rfl := List.mem_singleton.mp hmem
        exact isHexDigit_digitChar (by omega)

/-- A digit of the base in the one way in which it is written. -/
structure WrittenDigit (base : Nat) (digit : Char) : Prop where
  lt_base : digitValue digit < base
  written : (digitValue digit).digitChar = digit

theorem WrittenDigit.toDigits_eq {digit : Char} (h : WrittenDigit base digit) :
    Nat.toDigits base (digitValue digit) = [digit] := by
  rw [Nat.toDigits_of_lt_base h.lt_base, h.written]

theorem writtenDigit_of_isDigit {digit : Char} (h : digit.isDigit) : WrittenDigit 10 digit := by
  obtain ⟨hcode, hsmall⟩ := toNat_eq_of_isDigit h
  refine ⟨hsmall, ?_⟩
  apply Char.toNat_inj.mp
  rw [hcode, Nat.toNat_digitChar_of_lt_ten hsmall]

theorem toDigits_numeral_of_head (hbase : 1 < base) {run : List Char} (hne : run ≠ [])
    (hdigits : ∀ c ∈ run, WrittenDigit base c) (hhead : ∀ c ∈ run.head?, c ≠ '0') :
    Nat.toDigits base (numeral base run) = run := by
  -- Writing a number takes its last digit off, so the induction goes from that end.
  induction run using List.reverseRecOn with
  | nil => exact absurd rfl hne
  | append_singleton front digit ih =>
    have hdigit : WrittenDigit base digit := hdigits digit (by simp)
    rw [numeral_concat]
    cases front with
    | nil => simpa [numeral] using hdigit.toDigits_eq
    | cons first front =>
      have hfront := ih (List.cons_ne_nil _ _)
        (fun c hmem => hdigits c (List.mem_append_left [digit] hmem)) hhead
      have hpos : 0 < numeral base (first :: front) := by
        apply Nat.pos_of_ne_zero
        intro hzero
        rw [hzero, Nat.toDigits_zero] at hfront
        exact hhead first rfl (List.cons.inj hfront).1.symm
      rw [Nat.mul_comm, ← Nat.toDigits_append_toDigits hbase hpos hdigit.lt_base, hfront,
        hdigit.toDigits_eq]

/-- The digits without the zeros at the front that other digits follow. -/
def stripZeros : List Char → List Char
  | '0' :: digit :: rest => stripZeros (digit :: rest)
  | run => run

theorem numeral_zero_cons (base : Nat) (digits : List Char) :
    numeral base ('0' :: digits) = numeral base digits := by
  rw [numeral_cons]
  exact (congrArg (· + _) (Nat.zero_mul _)).trans (Nat.zero_add _)

theorem toDigits_numeral (hbase : 1 < base) {run : List Char} (hne : run ≠ [])
    (hdigits : ∀ c ∈ run, WrittenDigit base c) :
    Nat.toDigits base (numeral base run) = stripZeros run := by
  fun_induction stripZeros run with
  | case1 digit rest ih =>
    rw [numeral_zero_cons]
    exact ih (List.cons_ne_nil _ _) fun c hmem => hdigits c (List.mem_cons_of_mem _ hmem)
  | case2 run hstop =>
    cases run with
    | nil => exact absurd rfl hne
    | cons c rest =>
      by_cases hc : c = '0'
      · subst hc
        cases rest with
        | nil =>
          rw [numeral_zero_cons, numeral_nil]
          exact Nat.toDigits_zero base
        | cons digit rest => exact absurd rfl (hstop digit rest)
      · apply toDigits_numeral_of_head hbase hne hdigits
        rintro d ⟨⟩
        exact hc

theorem exists_eq_zeros_append (run : List Char) :
    ∃ zeros, run = List.replicate zeros '0' ++ stripZeros run := by
  fun_induction stripZeros run with
  | case1 digit rest ih =>
    obtain ⟨zeros, hrun⟩ := ih
    exact ⟨zeros + 1, congrArg ('0' :: ·) hrun⟩
  | case2 run => exact ⟨0, rfl⟩

theorem numeral_zeros_append (base zeros : Nat) (digits : List Char) :
    numeral base (List.replicate zeros '0' ++ digits) = numeral base digits := by
  induction zeros with
  | zero => rfl
  | succ zeros ih => rw [List.replicate_succ, List.cons_append, numeral_zero_cons, ih]

end Text

end GpuRules
