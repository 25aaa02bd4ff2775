import GpuRules.Criterion.Version
import GpuRules.Proofs.Reading.Value
import GpuRules.Proofs.Text.Numeral
import GpuRules.Proofs.Version.Grammar

/-! The lexical style. A text `major.digits` is spread out before it is read, so each digit is a
component by itself, however many there are. -/

namespace GpuRules

namespace Version

open Text (FrontRun digitValue digitValue_lt_ten frontRun_iff frontRun_takeWhile numeral)

/-- The form of text that is spread out: digits after its only dot. -/
structure MajorDigits (text major digits : List Char) : Prop where
  joined : text = major ++ '.' :: digits
  dot_notMem : '.' ∉ major
  nonempty : digits ≠ []
  isDigit : ∀ digit ∈ digits, digit.isDigit

theorem MajorDigits.spreadDigits_eq {text major digits : List Char}
    (h : MajorDigits text major digits) :
    spreadDigits text = major ++ digits.flatMap fun digit => ['.', digit] := by
  have hbefore : ∀ c ∈ major, (decide (c ≠ '.')) = true := by
    intro c hmem
    rw [decide_eq_true_eq]
    rintro rfl
    exact h.dot_notMem hmem
  have hrun : FrontRun (· ≠ '.') text major ('.' :: digits) := ⟨h.joined, hbefore, by simp⟩
  obtain ⟨htake, hdrop⟩ := frontRun_iff.mp hrun
  unfold spreadDigits
  rw [← hdrop, ← htake]
  exact if_pos ⟨h.nonempty, List.all_eq_true.mpr h.isDigit⟩

theorem spreadDigits_eq_self {text : List Char}
    (h : ¬∃ major digits, MajorDigits text major digits) : spreadDigits text = text := by
  obtain ⟨hjoined, hbefore, hstops⟩ := frontRun_takeWhile (· ≠ '.') text
  unfold spreadDigits
  split
  · next c digits hdrop =>
    rw [if_neg]
    rintro ⟨hne, hall⟩
    rw [hdrop] at hjoined hstops
    obtain rfl : c = '.' := by simpa using hstops c rfl
    refine h ⟨_, digits, hjoined, ?_, hne, List.all_eq_true.mp hall⟩
    intro hdot
    simpa using hbefore '.' hdot
  · rfl

theorem MajorDigits.count_dot {text major digits : List Char} (h : MajorDigits text major digits) :
    text.count '.' = 1 := by
  have hdigits : '.' ∉ digits := by
    intro hdot
    cases h.isDigit '.' hdot
  rw [h.joined, List.count_append, List.count_cons_self, List.count_eq_zero.mpr h.dot_notMem,
    List.count_eq_zero.mpr hdigits]

theorem spreadDigits_spreadDigits (text : List Char) :
    spreadDigits (spreadDigits text) = spreadDigits text := by
  by_cases hform : ∃ major digits, MajorDigits text major digits
  · obtain ⟨major, digits, hform⟩ := hform
    have hspread := hform.spreadDigits_eq
    obtain ⟨first, more, rfl⟩ := List.exists_cons_of_ne_nil hform.nonempty
    cases more with
    | nil =>
      -- One digit is spread out already.
      have hsame : spreadDigits text = text := hspread.trans hform.joined.symm
      rw [hsame, hsame]
    | cons next more =>
      -- After more of them there is another dot, and the form is lost.
      apply spreadDigits_eq_self
      rintro ⟨major', digits', hagain⟩
      have hcount := hagain.count_dot
      rw [hspread, List.flatMap_cons, List.flatMap_cons] at hcount
      simp only [List.count_append, List.count_cons_self] at hcount
      omega
  · rw [spreadDigits_eq_self hform, spreadDigits_eq_self hform]

def digitComponent (digit : Char) : UInt16 :=
  UInt16.ofNat (digitValue digit)

theorem toNat_digitComponent {digit : Char} (h : digit.isDigit) :
    (digitComponent digit).toNat = digitValue digit := by
  have hsize : UInt16.size = 65536 := rfl
  have hsmall := digitValue_lt_ten h
  exact UInt16.toNat_ofNat_of_lt' (by omega)

theorem spellsComponent_digit {digit : Char} (h : digit.isDigit) :
    SpellsComponent [digit] (digitComponent digit) where
  nonempty := List.cons_ne_nil digit []
  digits := by simpa using h
  value := by simp [toNat_digitComponent h, numeral]

theorem spells_spread {run digits : List Char} {component : UInt16}
    (hrun : SpellsComponent run component) (hdigits : ∀ digit ∈ digits, digit.isDigit) :
    Spells (run ++ digits.flatMap fun digit => ['.', digit])
      (component :: digits.map digitComponent) := by
  induction digits generalizing run component with
  | nil =>
    rw [List.flatMap_nil, List.append_nil]
    exact .last hrun
  | cons digit digits ih =>
    rw [List.forall_mem_cons] at hdigits
    exact .more hrun (ih (spellsComponent_digit hdigits.1) hdigits.2)

theorem parse_ofLexical_eq_ok_iff {text : String} {components : List UInt16} :
    parse (ofLexical text) = .ok ⟨components⟩ ↔ Spells (spreadDigits text.toList) components := by
  rw [parse_eq_ok_iff, ofLexical, String.toList_ofList]

theorem MajorDigits.spells {text major digits : List Char} (h : MajorDigits text major digits)
    {component : UInt16} (hmajor : SpellsComponent major component) :
    Spells (spreadDigits text) (component :: digits.map digitComponent) := by
  rw [h.spreadDigits_eq]
  exact spells_spread hmajor h.isDigit

theorem Spells.exists_spread {text : List Char} {first : UInt16} {more : List UInt16}
    (h : Spells text (first :: more)) : ∃ more', Spells (spreadDigits text) (first :: more') := by
  by_cases hform : ∃ major digits, MajorDigits text major digits
  · obtain ⟨major, digits, hform⟩ := hform
    obtain ⟨before, after, hmajor, -, hcomponents⟩ := spells_append_iff.mp (hform.joined ▸ h)
    obtain ⟨component, rfl⟩ := hmajor.dot_notMem_iff.mp hform.dot_notMem
    obtain ⟨rfl, -⟩ := List.cons.inj hcomponents
    exact ⟨_, hform.spells (spells_singleton_iff.mp hmajor)⟩
  · rw [spreadDigits_eq_self hform]
    exact ⟨more, h⟩

theorem values_digitComponents {digits : List Char} (h : ∀ digit ∈ digits, digit.isDigit)
    (component : UInt16) : values ⟨component :: digits.map digitComponent⟩ =
      component.toNat :: digits.map digitValue := by
  unfold values
  rw [List.map_cons, List.map_map]
  congr 1
  apply List.map_congr_left
  intro digit hmem
  exact toNat_digitComponent (h digit hmem)

/-- Spreading out twice is spreading out once. It makes a version of a version, with the same first
component, and of digits after a component a version of single digits, however many there are. Only
digits after the first dot are spread out. -/
theorem ofLexical_stable :
    (∀ text, ofLexical (ofLexical text) = ofLexical text) ∧
    (∀ text version, parse text = .ok version →
      ∃ first more more', version = ⟨first :: more⟩ ∧
        parse (ofLexical text) = .ok ⟨first :: more'⟩) ∧
    (∀ (major digits : String) (component : UInt16), parse major = .ok ⟨[component]⟩ →
      digits ≠ "" → (∀ digit ∈ digits.toList, digit.isDigit) →
      ∃ version, parse (ofLexical (major ++ "." ++ digits)) = .ok version ∧
        version.values = component.toNat :: digits.toList.map digitValue) ∧
    (∀ text : String, (¬∃ major digits, MajorDigits text.toList major digits) →
      ofLexical text = text) ∧
    ∀ (text : String) (major digits : List Char), MajorDigits text.toList major digits →
      (ofLexical text).toList = major ++ digits.flatMap fun digit => ['.', digit] := by
  refine ⟨?_, ?_, ?_, ?_, ?_⟩
  · intro text
    unfold ofLexical
    rw [String.toList_ofList, spreadDigits_spreadDigits]
  · rintro text ⟨components⟩ hparse
    have hspells := parse_eq_ok_iff.mp hparse
    obtain ⟨first, more, rfl⟩ := List.exists_cons_of_ne_nil hspells.ne_nil
    obtain ⟨more', hspread⟩ := hspells.exists_spread
    exact ⟨first, more, more', rfl, parse_ofLexical_eq_ok_iff.mpr hspread⟩
  · intro major digits component hmajor hdigits hall
    have hcomponent := spells_singleton_iff.mp (parse_eq_ok_iff.mp hmajor)
    have hform : MajorDigits (major ++ "." ++ digits).toList major.toList digits.toList :=
      ⟨by simp [String.toList_append], hcomponent.notMem (by decide),
        mt String.toList_eq_nil_iff.mp hdigits, hall⟩
    exact ⟨_, parse_ofLexical_eq_ok_iff.mpr (hform.spells hcomponent),
      values_digitComponents hall component⟩
  · intro text hform
    unfold ofLexical
    rw [spreadDigits_eq_self hform, String.ofList_toList]
  · intro text major digits hform
    unfold ofLexical
    rw [String.toList_ofList, hform.spreadDigits_eq]

/-- Five nines are too many for one component, and are five of them. A version of three components
has no digits after a dot that is its only one, and a letter may stand where no version has one. -/
theorem ofLexical_stable_fiveNines :
    parse "65535" = .ok ⟨[65535]⟩ ∧
      (∃ version, parse (ofLexical "65535.99999") = .ok version ∧
        version.values = [65535, 9, 9, 9, 9, 9]) ∧
      parse "10.06" = .ok ⟨[10, 6]⟩ ∧ (∃ more, parse (ofLexical "10.06") = .ok ⟨10 :: more⟩) ∧
      ofLexical "8.1.2" = "8.1.2" ∧
      MajorDigits "é.12".toList ['é'] ['1', '2'] ∧ (ofLexical "é.12").toList = "é.1.2".toList := by
  obtain ⟨-, hversion, hdigits, hother, hform⟩ := ofLexical_stable
  have hlargest : parse "65535" = .ok ⟨[65535]⟩ :=
    parse_eq_ok_iff.mpr (.last ⟨by decide, List.all_eq_true.mp rfl, rfl⟩)
  have hpadded : parse "10.06" = .ok ⟨[10, 6]⟩ := by
    apply parse_eq_ok_iff.mpr
    change Spells ("10".toList ++ '.' :: "06".toList) [10, 6]
    exact .more ⟨by decide, List.all_eq_true.mp rfl, rfl⟩
      (.last ⟨by decide, List.all_eq_true.mp rfl, rfl⟩)
  have hthree : ¬∃ major digits, MajorDigits "8.1.2".toList major digits := by
    rintro ⟨major, digits, hdotted⟩
    exact absurd hdotted.count_dot (by decide)
  have haccented : MajorDigits "é.12".toList ['é'] ['1', '2'] :=
    ⟨by decide, by decide, by decide, List.all_eq_true.mp rfl⟩
  obtain ⟨first, more, more', hfirst, hspread⟩ := hversion "10.06" _ hpadded
  cases hfirst
  have hnines : ∀ digit ∈ "99999".toList, digit.isDigit := List.all_eq_true.mp rfl
  exact ⟨hlargest, hdigits "65535" "99999" 65535 hlargest (by decide) hnines, hpadded,
    ⟨more', hspread⟩, hother "8.1.2" hthree, haccented, (hform _ _ _ haccented).trans (by decide)⟩

end Version

theorem VersionStyle.read_lexical {text : String} {major digits : List Char} {component : UInt16}
    (htext : text.toList = major ++ '.' :: digits)
    (hmajor : Version.SpellsComponent major component) (hdigits : digits ≠ [])
    (hall : ∀ digit ∈ digits, digit.isDigit) :
    VersionStyle.lexical.read text =
      .ok ⟨component :: digits.map Version.digitComponent⟩ := by
  have hform : Version.MajorDigits text.toList major digits :=
    ⟨htext, hmajor.notMem (by decide), hdigits, hall⟩
  exact Version.parse_ofLexical_eq_ok_iff.mpr (hform.spells hmajor)

end GpuRules
