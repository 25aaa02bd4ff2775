import GpuRules.Proofs.Exceptions
import GpuRules.Proofs.Reading.Criteria
import GpuRules.Proofs.Reading.Value
import GpuRules.Proofs.Text.Runs
import GpuRules.Proofs.Version.Display

/-! Releases as operating systems word them. A version stands in front, and whatever comes after
its digits and dots, in any script, is left alone. A release without a version in front is not
known, which only a criterion that asks nothing of the release lets pass. -/

namespace GpuRules

namespace Version

open Config (Report.toOption_eq_some_iff)
open Text (FrontRun LongestFront frontRun_iff longestFront_iff takeWhile_append_of_stops)

/-- The text after a version is empty or begins with a character that no version is written with. -/
def Foreign (rest : String) : Prop := ∀ c ∈ rest.toList.head?, isVersionChar c = false

theorem ofRelease?_eq_some_iff {release : String} {components : List UInt16} :
    ofRelease? release = some ⟨components⟩ ↔
      Spells (release.toList.takeWhile isVersionChar) components := by
  rw [← read_eq_ok_iff, ← Report.toOption_eq_some_iff]
  rfl

theorem ofRelease?_eq_some_iff_parse {release front : String}
    (h : LongestFront isVersionChar release.toList front.toList) (version : Version) :
    ofRelease? release = some version ↔ parse front = .ok version := by
  rw [ofRelease?_eq_some_iff, parse_eq_ok_iff, longestFront_iff.mp h]

theorem ofRelease?_text_append {version : Version} (h : version.components ≠ []) {rest : String}
    (hrest : Foreign rest) : ofRelease? (version.text ++ rest) = some version := by
  have hspells := spells_text h
  have hrun : FrontRun isVersionChar (version.text ++ rest).toList version.text.toList
      rest.toList :=
    ⟨String.toList_append, hspells.isVersionChar, hrest⟩
  rw [ofRelease?_eq_some_iff, ← (frontRun_iff.mp hrun).1]
  exact hspells

theorem ofRelease?_append_congr (front : String) {rest rest' : String} (h : Foreign rest)
    (h' : Foreign rest') : ofRelease? (front ++ rest) = ofRelease? (front ++ rest') := by
  have hfront {rest : String} (hforeign : Foreign rest) :
      ofRelease? (front ++ rest) = (read (front.toList.takeWhile isVersionChar)).toOption := by
    rw [← takeWhile_append_of_stops hforeign, ← String.toList_append]
    rfl
  rw [hfront h, hfront h']

end Version

theorem OsCriterion.contains_none_iff (criterion : OsCriterion) (os : OsType) :
    criterion.contains os none ↔
      (criterion.os = os ∨ criterion.os = .any) ∧ criterion.release.op = .any :=
  Config.OsCriterion.contains_iff criterion os none

theorem Rule.any_of_applies {rule : Rule} {hardware : Hardware} {criterion : OsCriterion}
    (happlies : rule.applies hardware) (hunknown : hardware.release = none)
    (hcriterion : rule.conditions.os = some criterion) : criterion.release.op = .any := by
  obtain ⟨-, hadmits, -⟩ := (appliesOn_iff rule).mp happlies
  have hholds := Conditions.admits_iff.mp hadmits .os
  unfold Conditions.holds at hholds
  rw [hcriterion, hunknown] at hholds
  exact ((criterion.contains_none_iff _).mp hholds).2

open Text (LongestFront longestFront_iff)
open Version (Foreign isVersionChar)

/-- A version that is written in front of a release is the one that is read. A release is read just
if the longest beginning of digits and dots is, as what that is, so nothing that comes after it
counts. Of any other release nothing is known, and no criterion that tests releases lets it pass.
-/
theorem release_read_in_front :
    (∀ (version : Version) (rest : String), version.components ≠ [] → Foreign rest →
      Version.ofRelease? (version.text ++ rest) = some version) ∧
    (∀ release : String, ∃ front : String,
      LongestFront isVersionChar release.toList front.toList) ∧
    (∀ release front : String, LongestFront isVersionChar release.toList front.toList →
      ∀ version, Version.ofRelease? release = some version ↔ Version.parse front = .ok version) ∧
    (∀ front rest rest' : String, Foreign rest → Foreign rest' →
      Version.ofRelease? (front ++ rest) = Version.ofRelease? (front ++ rest')) ∧
    ∀ release front : String, LongestFront isVersionChar release.toList front.toList →
      (∀ version, Version.parse front ≠ .ok version) →
      ∀ (hardware : Hardware) (os : OsType),
        (hardware.withOs os release).release = none ∧
        (∀ (criterion : OsCriterion) (system : OsType),
          criterion.contains system (hardware.withOs os release).release ↔
            (criterion.os = system ∨ criterion.os = .any) ∧ criterion.release.op = .any) ∧
        ∀ (rule : Rule) (criterion : OsCriterion), rule.applies (hardware.withOs os release) →
          rule.conditions.os = some criterion → criterion.release.op = .any := by
  refine ⟨fun version rest hne hrest => Version.ofRelease?_text_append hne hrest, ?_,
    fun release front hfront => Version.ofRelease?_eq_some_iff_parse hfront,
    fun front rest rest' hrest hrest' => Version.ofRelease?_append_congr front hrest hrest', ?_⟩
  · intro release
    refine ⟨String.ofList (release.toList.takeWhile isVersionChar), ?_⟩
    exact longestFront_iff.mpr String.toList_ofList
  · intro release front hfront hrefused hardware os
    have hunknown : (hardware.withOs os release).release = none := by
      apply Option.eq_none_iff_forall_ne_some.mpr
      intro version hread
      exact hrefused version ((Version.ofRelease?_eq_some_iff_parse hfront version).mp hread)
    refine ⟨hunknown, ?_, ?_⟩
    · intro criterion system
      rw [hunknown]
      exact criterion.contains_none_iff system
    · intro rule criterion happlies hcriterion
      exact rule.any_of_applies happlies hunknown hcriterion

/-- A letter of two bytes ends one version. Two dots in a row spoil another, however small it is. -/
theorem release_read_in_front_accented :
    Foreign "é.7" ∧ Version.ofRelease? "10.6.8é.7" = some ⟨[10, 6, 8]⟩ ∧
      Version.ofRelease? "10.6.8" = Version.ofRelease? "10.6.8é.7" ∧
      LongestFront isVersionChar "2..6 beta".toList "2..6".toList ∧
      (∀ version, Version.parse "2..6" ≠ .ok version) ∧
      ∀ hardware : Hardware, (hardware.withOs .linux "2..6 beta").release = none ∧
        (OsCriterion.contains ⟨.linux, VersionCriterion.any⟩ .linux
          (hardware.withOs .linux "2..6 beta").release) ∧
        ¬Rule.applies { conditions := { os := some ⟨.linux, .numerical, .lt ⟨[3]⟩⟩ } }
          (hardware.withOs .linux "2..6 beta") := by
  obtain ⟨hwritten, -, -, hrest, hother⟩ := release_read_in_front
  have hforeign : Foreign "é.7" := by
    rintro c ⟨⟩
    rfl
  have hempty : Foreign "" := by
    rintro c ⟨⟩
  have hfront : LongestFront isVersionChar "2..6 beta".toList "2..6".toList :=
    longestFront_iff.mpr (by decide)
  have hrefused : ∀ version, Version.parse "2..6" ≠ .ok version := by
    intro version hread
    have hnone : (Version.parse "2..6").toOption = none := by decide +kernel
    rw [hread] at hnone
    cases hnone
  refine ⟨hforeign, hwritten ⟨[10, 6, 8]⟩ "é.7" (by decide) hforeign,
    hrest "10.6.8" "" "é.7" hempty hforeign, hfront, hrefused, ?_⟩
  intro hardware
  obtain ⟨hunknown, hcontains, happlies⟩ := hother _ _ hfront hrefused hardware .linux
  refine ⟨hunknown, (hcontains _ _).mpr ⟨.inl rfl, rfl⟩, ?_⟩
  intro hactive
  cases happlies _ _ hactive rfl

end GpuRules
