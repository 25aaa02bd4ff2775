import GpuRules.PciId
import GpuRules.Proofs.Text.Case
import GpuRules.Proofs.Text.Numeral
import Mathlib.Data.List.TakeWhile

/-! The texts that are read as ids: digits of either case, with or without a marker in front. The
marker begins with a digit, but goes on with a letter that is none, so a text can be taken apart in
one way only. Up to the case of letters and the zeros in front, the digits are those in which the
id is written. -/

namespace GpuRules

namespace Text

theorem isHexDigit_iff_toNat {c : Char} : isHexDigit c ↔
    (48 ≤ c.toNat ∧ c.toNat ≤ 57) ∨ (97 ≤ c.toNat ∧ c.toNat ≤ 102) ∨
      (65 ≤ c.toNat ∧ c.toNat ≤ 70) := by
  unfold isHexDigit
  rw [Bool.or_eq_true, Bool.or_eq_true, Bool.and_eq_true, Bool.and_eq_true, Char.isDigit_iff_toNat,
    or_assoc]
  simp only [decide_eq_true_iff]
  rfl

theorem digitValue_eq_toNat (c : Char) : digitValue c =
    if 48 ≤ c.toNat ∧ c.toNat ≤ 57 then c.toNat - 48
    else if 97 ≤ c.toNat ∧ c.toNat ≤ 102 then c.toNat - 87
    else if 65 ≤ c.toNat ∧ c.toNat ≤ 70 then c.toNat - 55 else 0 := by
  have hdigit : c.isDigit ↔ 48 ≤ c.toNat ∧ c.toNat ≤ 57 := Char.isDigit_iff_toNat
  have hsmall : 'a' ≤ c ∧ c ≤ 'f' ↔ 97 ≤ c.toNat ∧ c.toNat ≤ 102 := Iff.rfl
  have hcapital : 'A' ≤ c ∧ c ≤ 'F' ↔ 65 ≤ c.toNat ∧ c.toNat ≤ 70 := Iff.rfl
  have hzero : '0'.toNat = 48 := rfl
  have ha : 'a'.toNat = 97 := rfl
  have hA : 'A'.toNat = 65 := rfl
  simp only [digitValue, hdigit, hsmall, hcapital, hzero, ha, hA]
  split_ifs <;> omega

theorem isHexDigit_toLower_iff (c : Char) : isHexDigit c.toLower ↔ isHexDigit c := by
  simp only [isHexDigit_iff_toNat, toNat_toLower, isUpper_iff_toNat]
  split <;> omega

theorem digitValue_toLower (c : Char) : digitValue c.toLower = digitValue c := by
  simp only [digitValue_eq_toNat, toNat_toLower, isUpper_iff_toNat]
  split_ifs <;> omega

theorem toNat_digitChar {digit : Nat} (h : digit < 16) :
    digit.digitChar.toNat = if digit < 10 then digit + 48 else digit + 87 := by
  revert digit
  decide

theorem writtenDigit_toLower {c : Char} (h : isHexDigit c) : WrittenDigit 16 c.toLower := by
  rw [isHexDigit_iff_toNat] at h
  have hsmall : digitValue c < 16 := by
    rw [digitValue_eq_toNat]
    split_ifs <;> omega
  rw [← digitValue_toLower] at hsmall
  refine ⟨hsmall, Char.toNat_inj.mp ?_⟩
  rw [toNat_digitChar hsmall, digitValue_toLower]
  simp only [digitValue_eq_toNat, toNat_toLower, isUpper_iff_toNat]
  split_ifs <;> omega

theorem numeral_foldCase (base : Nat) (digits : List Char) :
    numeral base (foldCase digits) = numeral base digits := by
  simp [numeral, foldCase, List.foldl_map, digitValue_toLower]

theorem isHexDigit_of_sameButCase {digits digits' : List Char} (h : SameButCase digits digits')
    (hdigits : ∀ c ∈ digits', isHexDigit c) : ∀ c ∈ digits, isHexDigit c := by
  intro c hmem
  have hlower : c.toLower ∈ foldCase digits' := by
    rw [← foldCase_eq_iff.mpr h]
    exact List.mem_map_of_mem hmem
  obtain ⟨d, hd, hsame⟩ := List.mem_map.mp hlower
  rw [← isHexDigit_toLower_iff, ← hsame, isHexDigit_toLower_iff]
  exact hdigits d hd

theorem hexDigits_spell_iff {run : List Char} {n : Nat} :
    run ≠ [] ∧ (∀ c ∈ run, isHexDigit c) ∧ numeral 16 run = n ↔
      ∃ zeros digits, run = List.replicate zeros '0' ++ digits ∧
        SameButCase digits (Nat.toDigits 16 n) := by
  constructor
  · rintro ⟨hne, hdigits, rfl⟩
    have hwritten : ∀ c ∈ foldCase run, WrittenDigit 16 c :=
      List.forall_mem_map.mpr fun c hmem => writtenDigit_toLower (hdigits c hmem)
    have htoDigits := toDigits_numeral (by decide) (by simpa [foldCase] using hne) hwritten
    obtain ⟨zeros, hzeros⟩ := exists_eq_zeros_append (foldCase run)
    rw [← htoDigits, numeral_foldCase] at hzeros
    obtain ⟨front, digits, rfl, hfront, hlast⟩ := List.map_eq_append_iff.mp hzeros
    refine ⟨zeros, digits, ?_, sameButCase_of_foldCase_eq hlast⟩
    have hplain : ∀ c ∈ List.replicate zeros '0', ¬c.isAlpha := by
      intro c hmem
      rw [List.eq_of_mem_replicate hmem]
      decide
    rw [(sameButCase_of_foldCase_eq hfront).eq_of_not_isAlpha hplain]
  · rintro ⟨zeros, digits, rfl, hsame⟩
    have hhex : ∀ c ∈ digits, isHexDigit c := isHexDigit_of_sameButCase hsame fun c =>
      isHexDigit_of_mem_toDigits (by decide) (by decide)
    refine ⟨?_, ?_, ?_⟩
    · rintro hnil
      obtain ⟨-, rfl⟩ := List.append_eq_nil_iff.mp hnil
      exact Nat.toDigits_ne_nil (List.forall₂_nil_left_iff.mp hsame)
    · intro c hmem
      rcases List.mem_append.mp hmem with hzero | hdigit
      · rw [List.eq_of_mem_replicate hzero]
        decide
      · exact hhex c hdigit
    · rw [numeral_zeros_append, ← numeral_foldCase, foldCase_eq_iff.mpr hsame, numeral_foldCase,
        numeral_toDigits (by decide) (by decide)]

end Text

namespace PciId

open Text (SameButCase isHexDigit numeral)

def markers : List (List Char) := [[], ['0', 'x'], ['0', 'X']]

structure SpellsDigits (run : List Char) (id : PciId) : Prop where
  nonempty : run ≠ []
  digits : ∀ c ∈ run, isHexDigit c
  value : numeral 16 run = id.toNat

def Spells (text : List Char) (id : PciId) : Prop :=
  ∃ marker ∈ markers, ∃ run, text = marker ++ run ∧ SpellsDigits run id

theorem exists_marker (text : List Char) : ∃ marker ∈ markers, text = marker ++ unmarked text := by
  unfold unmarked markers
  split <;> simp

theorem unmarked_of_digits {run : List Char} (h : ∀ c ∈ run, isHexDigit c) : unmarked run = run := by
  -- The letter of a marker is no digit.
  have hx : isHexDigit 'x' = false := by decide
  have hX : isHexDigit 'X' = false := by decide
  unfold unmarked
  split
  · simp [hx] at h
  · simp [hX] at h
  · rfl

theorem unmarked_marker {marker run : List Char} (hmarker : marker ∈ markers)
    (hrun : ∀ c ∈ run, isHexDigit c) : unmarked (marker ++ run) = run := by
  simp only [markers, List.mem_cons, List.not_mem_nil, or_false] at hmarker
  rcases hmarker with rfl | rfl | rfl
  · exact unmarked_of_digits hrun
  · rfl
  · rfl

theorem read_eq_ok_iff {text : List Char} {id : PciId} : read text = .ok id ↔ Spells text id := by
  constructor
  · intro h
    unfold read at h
    dsimp only at h
    split at h
    · cases h
    split at h
    · cases h
    split at h
    · cases h
    next hne hsmall hall =>
      obtain ⟨marker, hmarker, htext⟩ := exists_marker text
      have hrun : (unmarked text).takeWhile isHexDigit = unmarked text :=
        (List.takeWhile_prefix isHexDigit).eq_of_length_le (Nat.le_of_not_lt hall)
      rw [hrun] at h hne hsmall
      refine ⟨marker, hmarker, unmarked text, htext, hne, ?_, ?_⟩
      · exact List.takeWhile_eq_self_iff.mp hrun
      · rw [← Except.ok.inj h, UInt32.toNat_ofNat_of_lt' (Nat.lt_of_not_le hsmall)]
  · rintro ⟨marker, hmarker, run, rfl, hne, hdigits, hvalue⟩
    have hrun : run.takeWhile isHexDigit = run := List.takeWhile_eq_self_iff.mpr hdigits
    have hsmall : ¬UInt32.size ≤ id.toNat := Nat.not_le_of_lt id.toNat_lt_size
    unfold read
    simp only [unmarked_marker hmarker hdigits, hrun, hvalue, if_neg hne, if_neg hsmall,
      lt_irrefl, if_false, UInt32.ofNat_toNat]

theorem parse_eq_ok_iff {text : String} {id : PciId} :
    parse text = .ok id ↔ Spells text.toList id := by
  rw [← read_eq_ok_iff, parse]
  cases read text.toList <;> simp [Except.mapError]

theorem spells_iff {text : List Char} {id : PciId} : Spells text id ↔
    ∃ marker ∈ markers, ∃ zeros digits, text = marker ++ List.replicate zeros '0' ++ digits ∧
      SameButCase digits (Nat.toDigits 16 id.toNat) := by
  unfold Spells
  apply exists_congr
  intro marker
  apply and_congr_right
  intro _
  constructor
  · rintro ⟨run, rfl, hne, hdigits, hvalue⟩
    obtain ⟨zeros, digits, rfl, hsame⟩ := Text.hexDigits_spell_iff.mp ⟨hne, hdigits, hvalue⟩
    exact ⟨zeros, digits, (List.append_assoc _ _ _).symm, hsame⟩
  · rintro ⟨zeros, digits, rfl, hsame⟩
    obtain ⟨hne, hdigits, hvalue⟩ := Text.hexDigits_spell_iff.mpr ⟨zeros, digits, rfl, hsame⟩
    exact ⟨_, List.append_assoc _ _ _, hne, hdigits, hvalue⟩

theorem exists_spells_iff {text : List Char} : (∃ id, Spells text id) ↔
    ∃ marker ∈ markers, ∃ run, text = marker ++ run ∧ run ≠ [] ∧ (∀ c ∈ run, isHexDigit c) ∧
      numeral 16 run < 2 ^ 32 := by
  constructor
  · rintro ⟨id, marker, hmarker, run, htext, hne, hdigits, hvalue⟩
    exact ⟨marker, hmarker, run, htext, hne, hdigits, hvalue ▸ id.toNat_lt_size⟩
  · rintro ⟨marker, hmarker, run, htext, hne, hdigits, hsmall⟩
    exact ⟨UInt32.ofNat (numeral 16 run), marker, hmarker, run, htext, hne, hdigits,
      (UInt32.toNat_ofNat_of_lt' hsmall).symm⟩

def text (id : PciId) : String :=
  String.ofList ('0' :: 'x' :: Nat.toDigits 16 id.toNat)

theorem parse_text (id : PciId) : parse id.text = .ok id := by
  rw [parse_eq_ok_iff, spells_iff, text, String.toList_ofList]
  exact ⟨['0', 'x'], by decide, 0, _, rfl, Text.foldCase_eq_iff.mp rfl⟩

/-- A text is read as an id just if it is digits of a value below `2 ^ 32`, after a marker or
without one, and the id is that value. So the digits in which an id is written are read as the id,
in any case and with any zeros and marker in front, and nothing else is; and no text is spelled as
two ids. -/
theorem parse_accepts_ids :
    (∀ text, (∃ id, parse text = .ok id) ↔
      ∃ marker ∈ markers, ∃ run, text.toList = marker ++ run ∧ run ≠ [] ∧
        (∀ c ∈ run, isHexDigit c) ∧ numeral 16 run < 2 ^ 32) ∧
    (∀ text id, parse text = .ok id ↔ Spells text.toList id) ∧
    (∀ text id, parse text = .ok id ↔
      ∃ marker ∈ markers, ∃ zeros digits,
        text.toList = marker ++ List.replicate zeros '0' ++ digits ∧
          SameButCase digits (Nat.toDigits 16 id.toNat)) ∧
    ∀ text id id', Spells text id → Spells text id' → id = id' := by
  refine ⟨?_, fun text id => parse_eq_ok_iff, ?_, ?_⟩
  · intro text
    simp only [parse_eq_ok_iff]
    exact exists_spells_iff
  · intro text id
    rw [parse_eq_ok_iff, spells_iff]
  · intro text id id' hid hid'
    rw [← read_eq_ok_iff] at hid hid'
    exact Except.ok.inj (hid.symm.trans hid')

/-- The largest id, with more digits than an id needs, is read from either case of its digits; the
number after it is refused although it is written in fewer characters. -/
theorem parse_accepts_ids_largest :
    Spells "0X00ffffFFFF".toList 0xffffffff ∧ parse "0X00ffffFFFF" = .ok 0xffffffff ∧
      (∀ id, Spells "0X00ffffFFFF".toList id → id = 0xffffffff) ∧
      ¬∃ id, parse "0x100000000" = .ok id := by
  obtain ⟨-, hspells, hwritten, hunique⟩ := parse_accepts_ids
  have hdigits : SameButCase "ffffFFFF".toList (Nat.toDigits 16 (0xffffffff : PciId).toNat) :=
    Text.foldCase_eq_iff.mp (by decide)
  have hlargest := (hwritten "0X00ffffFFFF" 0xffffffff).mpr
    ⟨['0', 'X'], by decide, 2, "ffffFFFF".toList, by decide, hdigits⟩
  have hread := (hspells _ _).mp hlargest
  refine ⟨hread, hlargest, fun id hid => hunique _ id _ hid hread, ?_⟩
  rintro ⟨id, hid⟩
  have hrefused : (parse "0x100000000").toOption = none := by decide +kernel
  rw [hid] at hrefused
  cases hrefused

end PciId

end GpuRules
