import GpuRules.Proofs.Exceptions
import GpuRules.Proofs.Reading.Shape
import GpuRules.Proofs.Version.Interval
import Mathlib.Data.Prod.Lex

/-! Dates in time. A date that is spelled as documented is read as year, month and day, and
versions of three components compare as those three numbers do in lexicographic order. So a
criterion on dates means what it says of the calendar, whichever way its bounds and the date of the
driver are padded with zeros. -/

namespace GpuRules

structure Date where
  year : UInt16
  month : UInt16
  day : UInt16
  deriving DecidableEq, Repr

namespace Date

def key (date : Date) : ℕ ×ₗ ℕ ×ₗ ℕ :=
  toLex (date.year.toNat, toLex (date.month.toNat, date.day.toNat))

theorem key_injective : Function.Injective key := by
  intro a b h
  obtain ⟨year, month, day⟩ := a
  obtain ⟨year', month', day'⟩ := b
  simpa [key, UInt16.toNat_inj] using h

instance : LinearOrder Date := LinearOrder.lift' key key_injective

theorem lt_iff {a b : Date} : a < b ↔ a.year.toNat < b.year.toNat ∨
    a.year.toNat = b.year.toNat ∧ (a.month.toNat < b.month.toNat ∨
      a.month.toNat = b.month.toNat ∧ a.day.toNat < b.day.toNat) := by
  change a.key < b.key ↔ _
  rw [key, key, Prod.Lex.toLex_lt_toLex, Prod.Lex.toLex_lt_toLex]

/-- The text is `mm-dd-yyyy` with these three numbers, padded with zeros or not. -/
def Spells (text : String) (date : Date) : Prop :=
  Version.SpellsDate text.toList date.month date.day date.year

def version (date : Date) : Version :=
  ⟨[date.year, date.month, date.day]⟩

theorem ofDate_of_spells {text : String} {date : Date} (h : Spells text date) :
    Version.ofDate text = .ok date.version :=
  Version.ofDate_eq_ok_iff.mpr ⟨_, _, _, Version.spellsParts_singletons_iff.mpr h, rfl⟩

theorem version_lt_iff {a b : Date} : a.version < b.version ↔ a < b := by
  have hnil : Version.compareValues [] [] ≠ .lt := by decide
  change Version.compareValues [_, _, _] [_, _, _] = .lt ↔ _
  simp only [Version.compareValues_cons_eq_lt_iff, hnil, and_false, or_false, lt_iff]

theorem version_le_iff {a b : Date} : a.version ≤ b.version ↔ a ≤ b := by
  rw [← Version.not_lt, version_lt_iff, not_lt]

theorem begins_version_iff {bound candidate : Date} :
    bound.version.begins candidate.version ↔ bound = candidate := by
  obtain ⟨year, month, day⟩ := bound
  obtain ⟨year', month', day'⟩ := candidate
  simp [version, Version.begins, Version.values, Version.beginsValues, UInt16.toNat_inj]

def Satisfies (candidate : Date) : Comparison Date → Prop
  | .any => True
  | .eq bound => candidate = bound
  | .lt bound => candidate < bound
  | .le bound => candidate ≤ bound
  | .gt bound => bound < candidate
  | .ge bound => bound ≤ candidate
  | .between low high => low ≤ candidate ∧ candidate ≤ high

def criterion (test : Comparison Date) : VersionCriterion :=
  ⟨.numerical, test.map version⟩

theorem contains_criterion_iff (test : Comparison Date) (candidate : Date) :
    (criterion test).contains candidate.version ↔ candidate.Satisfies test := by
  cases test with
  | any => exact iff_of_true rfl trivial
  | eq bound => exact begins_version_iff.trans eq_comm
  | lt bound => exact (VersionCriterion.contains_lt_iff ..).trans version_lt_iff
  | le bound => exact (VersionCriterion.contains_le_iff ..).trans version_le_iff
  | gt bound => exact (VersionCriterion.contains_gt_iff ..).trans version_lt_iff
  | ge bound => exact (VersionCriterion.contains_ge_iff ..).trans version_le_iff
  | between low high =>
    exact (VersionCriterion.contains_between_iff ..).trans
      (and_congr version_le_iff version_le_iff)

theorem parseDate_eq_criterion {test : Comparison Date} {date date2 : String}
    (h : test.Spelled Spells date date2) :
    VersionCriterion.parseDate test.op.token date date2 = .ok (criterion test) := by
  have hbounds : Comparison.ofBounds test.op (Version.ofDate date) (Version.ofDate date2) =
      .ok (test.map version) := by
    apply Comparison.ofBounds_of_spelled _ h
    exact fun text bound => ofDate_of_spells
  exact VersionCriterion.build_of_ofBounds rfl hbounds

theorem applies_iff_contains {rule : Rule} {criterion : VersionCriterion} {hardware : Hardware}
    {version : Version} (hconditions : rule.conditions = { driverDate := some criterion })
    (hmalformed : rule.malformed = []) (hexceptions : rule.exceptions = [])
    (hread : Version.ofDate hardware.driverDate = .ok version) :
    rule.applies hardware ↔ criterion.contains version := by
  have hunset : ∀ other, other ≠ .driverDate → rule.conditions.IsUnset other := by
    intro other hother
    rw [hconditions]
    cases other <;> first | rfl | exact absurd rfl hother
  have hholds (os : OsType) :
      rule.conditions.holds os hardware .driverDate = criterion.contains version := by
    rw [hconditions, Conditions.holds, Option.all_some, hread]
    rfl
  rw [Rule.applies, Rule.appliesOn_iff, Conditions.admits_eq_holds hunset, hholds]
  simp [hmalformed, hexceptions]

theorem applies_eq_false_of_refused {rule : Rule} {criterion : VersionCriterion}
    {hardware : Hardware} (hconditions : rule.conditions.driverDate = some criterion)
    (hrefused : ∀ version, Version.ofDate hardware.driverDate ≠ .ok version) :
    rule.applies hardware = false := by
  have hfails : rule.conditions.holds hardware.os.resolve hardware .driverDate = false := by
    rw [Conditions.holds, hconditions, Option.all_some]
    cases hread : Version.ofDate hardware.driverDate with
    | ok version => exact absurd hread (hrefused version)
    | error error => rfl
  exact Rule.appliesOn_eq_false_of_holds_eq_false hfails

/-- Bounds that are dates make a criterion for every operator, every date is read, and the
criterion contains what is read just if the dates stand in that order in time. A rule that asks for
nothing else applies just if it does, and a rule that asks for it among other things applies to no
driver whose date cannot be read. -/
theorem dates_in_time (test : Comparison Date) (date date2 : String)
    (h : test.Spelled Spells date date2) :
    ∃ criterion, VersionCriterion.parseDate test.op.token date date2 = .ok criterion ∧
      (∀ (text : String) (candidate : Date), Spells text candidate →
        ∃ version, Version.ofDate text = .ok version ∧
          (criterion.contains version ↔ candidate.Satisfies test) ∧
          ∀ (rule : Rule) (hardware : Hardware), rule.conditions = { driverDate := some criterion } →
            rule.malformed = [] → rule.exceptions = [] → hardware.driverDate = text →
            (rule.applies hardware ↔ criterion.contains version)) ∧
      (∀ low high, test = .between low high → high < low →
        ∀ version, criterion.contains version = false) ∧
      ∀ (rule : Rule) (hardware : Hardware), rule.conditions.driverDate = some criterion →
        (∀ version, Version.ofDate hardware.driverDate ≠ .ok version) →
        rule.applies hardware = false := by
  refine ⟨criterion test, parseDate_eq_criterion h, ?_, ?_, ?_⟩
  · intro text candidate hspells
    refine ⟨candidate.version, ofDate_of_spells hspells, contains_criterion_iff test candidate, ?_⟩
    intro rule hardware hconditions hmalformed hexceptions hdriver
    apply applies_iff_contains hconditions hmalformed hexceptions
    rw [hdriver, ofDate_of_spells hspells]
  · rintro low high rfl hreversed version
    rw [← Bool.not_eq_true]
    intro hcontains
    obtain ⟨hlow, hhigh⟩ := (VersionCriterion.contains_between_iff ..).mp hcontains
    exact Version.not_lt.mpr (Version.le_trans hlow hhigh) (version_lt_iff.mpr hreversed)
  · intro rule hardware
    exact applies_eq_false_of_refused

/-- A day after the turn of the year lies between two dates, of which the later is padded with
zeros. With the bounds the other way round there is nothing between them. -/
theorem dates_in_time_turnOfYear :
    let early : Date := ⟨2009, 12, 31⟩
    let late : Date := ⟨2010, 2, 1⟩
    let candidate : Date := ⟨2010, 1, 30⟩
    let hardware : Hardware := { driverDate := "01-30-2010" }
    Spells "12-31-2009" early ∧ Spells "2-001-02010" late ∧ Spells "01-30-2010" candidate ∧
      candidate.Satisfies (.between early late) ∧
      (∃ criterion, VersionCriterion.parseDate "between" "12-31-2009" "2-001-02010" = .ok criterion ∧
        Rule.applies ({ conditions := { driverDate := some criterion } } : Rule) hardware ∧
        Rule.applies ({ conditions := { driverDate := some criterion } } : Rule)
          { driverDate := "30-2010" } = false) ∧
      late > early ∧
      ∃ criterion, VersionCriterion.parseDate "between" "2-001-02010" "12-31-2009" = .ok criterion ∧
        criterion.contains candidate.version = false := by
  intro early late candidate hardware
  have hearly : Spells "12-31-2009" early :=
    ⟨['1', '2'], ['3', '1'], ['2', '0', '0', '9'], rfl, ⟨by simp, by simp, rfl⟩,
      ⟨by simp, by simp, rfl⟩, ⟨by simp, by simp, rfl⟩⟩
  have hlate : Spells "2-001-02010" late :=
    ⟨['2'], ['0', '0', '1'], ['0', '2', '0', '1', '0'], rfl, ⟨by simp, by simp, rfl⟩,
      ⟨by simp, by simp, rfl⟩, ⟨by simp, by simp, rfl⟩⟩
  have hcandidate : Spells "01-30-2010" candidate :=
    ⟨['0', '1'], ['3', '0'], ['2', '0', '1', '0'], rfl, ⟨by simp, by simp, rfl⟩,
      ⟨by simp, by simp, rfl⟩, ⟨by simp, by simp, rfl⟩⟩
  have hbetween : candidate.Satisfies (.between early late) := by
    constructor
    · exact le_of_lt (lt_iff.mpr (by decide))
    · exact le_of_lt (lt_iff.mpr (by decide))
  have hreversed : early < late := lt_iff.mpr (by decide)
  have hrefused (version : Version) : Version.ofDate "30-2010" ≠ .ok version := by
    have hnone : (Version.ofDate "30-2010").toOption = none := by decide +kernel
    intro hread
    rw [hread] at hnone
    cases hnone
  obtain ⟨criterion, hparse, hdates, -, hunread⟩ :=
    dates_in_time (.between early late) "12-31-2009" "2-001-02010" ⟨hearly, hlate⟩
  obtain ⟨version, -, hcontains, hrule⟩ := hdates "01-30-2010" candidate hcandidate
  obtain ⟨criterion', hparse', -, hnothing, -⟩ :=
    dates_in_time (.between late early) "2-001-02010" "12-31-2009" ⟨hlate, hearly⟩
  refine ⟨hearly, hlate, hcandidate, hbetween, ⟨criterion, hparse, ?_, ?_⟩, hreversed,
    ⟨criterion', hparse', hnothing late early rfl hreversed _⟩⟩
  · exact (hrule _ hardware rfl rfl rfl rfl).mpr (hcontains.mpr hbetween)
  · exact hunread _ _ rfl hrefused

end Date

end GpuRules
