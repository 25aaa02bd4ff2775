import GpuRules.Config.Load
import GpuRules.Proofs.Exceptions
import GpuRules.Proofs.Reading.Value
import GpuRules.Proofs.Version.Padding

/-! Versions that differ by zeros at the end are the same version to whatever they are tested
against: to the browsers that entries are for, to releases and to drivers. A lexical driver version
is the exception, because its style reads the text anew. -/

namespace GpuRules

open Config
open Json (Members)

theorem VersionCriterion.contains_candidate_eq_of_beq {candidate candidate' : Version}
    (h : candidate == candidate') (criterion : VersionCriterion) :
    criterion.contains candidate = criterion.contains candidate' := by
  unfold contains
  simp only [Version.begins_candidate_eq_of_beq h, Version.compare_candidate_eq_of_beq h]

namespace Config

variable {browser browser' : Version} (h : browser == browser')

include h

theorem supports_eq_of_beq (members : Members) :
    supports browser members = supports browser' members := by
  unfold supports
  simp only [VersionCriterion.contains_candidate_eq_of_beq h]

/-- What is told of an entry for other browsers names the version, but an outcome does not. -/
theorem outcome_readItem_eq_of_beq (index : Nat) (json : Json) :
    (readItem browser index json).outcome = (readItem browser' index json).outcome := by
  unfold readItem
  rw [Report.outcome_bind, Report.outcome_bind]
  congr 1
  funext members
  rw [supports_eq_of_beq h, Report.outcome_bind, Report.outcome_bind]
  congr 1
  funext supported
  cases supported <;> rfl

theorem outcome_readItems_eq_of_beq (index : Nat) (seen : List UInt32) (items : List Json) :
    (readItems browser index seen items).outcome =
      (readItems browser' index seen items).outcome := by
  induction items generalizing index seen with
  | nil => rfl
  | cons json rest ih =>
    rw [readItems, readItems, Report.outcome_bind, Report.outcome_bind,
      outcome_readItem_eq_of_beq h]
    congr 1
    funext rule?
    cases rule? with
    | none => exact ih (index + 1) seen
    | some rule =>
      dsimp only
      split
      · rfl
      · rw [Report.outcome_bind, Report.outcome_bind, ih]

end Config

theorem outcome_ofTree_eq_of_beq {text text' : String} {browser browser' : Version}
    (hread : Version.parse text = .ok browser) (hread' : Version.parse text' = .ok browser')
    (h : browser == browser') (filter : OsFilter) (platform : OsType) (tree : Json) :
    (RuleSet.ofTree ⟨text, filter, platform⟩ tree).outcome =
      (RuleSet.ofTree ⟨text', filter, platform⟩ tree).outcome := by
  have hkeeps : LoadOptions.keeps ⟨text, filter, platform⟩ =
      LoadOptions.keeps ⟨text', filter, platform⟩ := rfl
  unfold RuleSet.ofTree
  simp only [hread, hread', Except.mapError, Report.ofExcept_ok, Report.pure_bind,
    Report.outcome_bind, hkeeps, outcome_readItems_eq_of_beq h]

def SameDriver (text text' : String) : Prop :=
  ∃ version version', Version.parse text = .ok version ∧ Version.parse text' = .ok version' ∧
    version == version'

def SameRelease (release release' : Option Version) : Prop :=
  ∃ version version', release = some version ∧ release' = some version' ∧ version == version'

def Conditions.NotLexical (conditions : Conditions) : Prop :=
  ∀ criterion ∈ conditions.driverVersion, criterion.style ≠ .lexical

/-- Two snapshots that are the same but for zeros at the end of a release, and of a driver version
if no rule and no exception in it asks for one in the lexical style. -/
structure Hardware.Alike (rules : List Rule) (hardware hardware' : Hardware) : Prop where
  release : hardware.release = hardware'.release ∨ SameRelease hardware.release hardware'.release
  driver : hardware.driverVersion = hardware'.driverVersion ∨
    (∀ rule ∈ rules, ∀ node : Rule, node.Within rule → node.conditions.NotLexical) ∧
      SameDriver hardware.driverVersion hardware'.driverVersion
  rest : hardware' = { hardware with
    release := hardware'.release, driverVersion := hardware'.driverVersion }

theorem OsCriterion.contains_eq_of_sameRelease {release release' : Option Version}
    (h : SameRelease release release') (criterion : OsCriterion) (os : OsType) :
    criterion.contains os release = criterion.contains os release' := by
  obtain ⟨version, version', rfl, rfl, hequal⟩ := h
  unfold contains
  simp only [VersionCriterion.contains_candidate_eq_of_beq hequal]

theorem containsRead_eq_of_sameDriver {text text' : String} (h : SameDriver text text')
    {criterion : VersionCriterion} (hstyle : criterion.style ≠ .lexical) :
    Conditions.containsRead criterion (criterion.style.read text) =
      Conditions.containsRead criterion (criterion.style.read text') := by
  obtain ⟨version, version', hread, hread', hequal⟩ := h
  cases hnumerical : criterion.style with
  -- Spread out, `8.10` and `8.10.0` are no longer equal.
  | lexical => exact absurd hnumerical hstyle
  | numerical =>
    change Conditions.containsRead criterion (Version.parse text) =
      Conditions.containsRead criterion (Version.parse text')
    rw [hread, hread']
    exact VersionCriterion.contains_candidate_eq_of_beq hequal criterion

theorem Conditions.holds_eq_of_same {conditions : Conditions} {hardware : Hardware}
    {release : Option Version} {driverVersion : String}
    (hrelease : hardware.release = release ∨ SameRelease hardware.release release)
    (hdriver : hardware.driverVersion = driverVersion ∨
      conditions.NotLexical ∧ SameDriver hardware.driverVersion driverVersion)
    (os : OsType) (slot : Slot) :
    conditions.holds os hardware slot =
      conditions.holds os { hardware with release, driverVersion } slot := by
  cases slot with
  | os =>
    rcases hrelease with rfl | hsame
    · rfl
    · have hcontains (criterion : OsCriterion) : criterion.contains os hardware.release =
          criterion.contains os release := criterion.contains_eq_of_sameRelease hsame os
      simp only [holds, hcontains]
  | driverVersion =>
    rcases hdriver with rfl | ⟨hstyle, hsame⟩
    · rfl
    · unfold holds
      cases hcriterion : conditions.driverVersion with
      | none => rfl
      | some criterion => exact containsRead_eq_of_sameDriver hsame (hstyle criterion hcriterion)
  | _ => rfl

theorem Rule.applies_eq_of_alike {rules : List Rule} {hardware hardware' : Hardware}
    (h : hardware.Alike rules hardware') {rule : Rule} (hmem : rule ∈ rules) :
    rule.applies hardware = rule.applies hardware' := by
  unfold applies
  rw [h.rest]
  apply appliesOn_congr
  intro node hnode
  have hdriver : hardware.driverVersion = hardware'.driverVersion ∨
      node.conditions.NotLexical ∧ SameDriver hardware.driverVersion hardware'.driverVersion :=
    h.driver.imp_right fun hsame => ⟨hsame.1 rule hmem node hnode, hsame.2⟩
  unfold Conditions.admits
  congr 1
  funext slot
  exact Conditions.holds_eq_of_same h.release hdriver _ slot

/-- Equal reference versions make for the same load, and snapshots that are alike for the same
evaluation. -/
theorem equal_versions_indistinguishable :
    (∀ text text' browser browser', Version.parse text = .ok browser →
      Version.parse text' = .ok browser' → browser == browser' →
      ∀ filter platform tree, (RuleSet.ofTree ⟨text, filter, platform⟩ tree).outcome =
        (RuleSet.ofTree ⟨text', filter, platform⟩ tree).outcome) ∧
    ∀ (set : RuleSet) (hardware hardware' : Hardware), hardware.Alike set.rules hardware' →
      set.evaluate hardware = set.evaluate hardware' := by
  constructor
  · intro text text' browser browser' hread hread' h filter platform tree
    exact outcome_ofTree_eq_of_beq hread hread' h filter platform tree
  · intro set hardware hardware' h
    have hactive : set.rules.filter (·.applies hardware) =
        set.rules.filter (·.applies hardware') := by
      apply List.filter_congr
      intro rule hmem
      exact Rule.applies_eq_of_alike h hmem
    unfold RuleSet.evaluate evaluate
    rw [hactive]

def browserTree : Json :=
  .object [
    ("version", .string "1.0"),
    ("entries", .array [.object [
      ("id", .integer 1),
      ("blacklist", .array [.string "webgl"]),
      ("browser_version", .object [("op", .string "="), ("number", .string "20.0")])]])]

/-- A rule for one release and for drivers from the eighth on, but not for all of them. -/
def releaseRule : Rule where
  id := 1
  conditions := {
    os := some ⟨.macOs, .numerical, .eq ⟨[10, 6]⟩⟩
    driverVersion := some ⟨.numerical, .ge ⟨[8]⟩⟩ }
  features := .ofFeature .webgl
  exceptions := [{ conditions := { driverVersion := some ⟨.numerical, .eq ⟨[8, 1, 0]⟩⟩ } }]

theorem notLexical_of_within_releaseRule {node : Rule} (h : node.Within releaseRule) :
    node.conditions.NotLexical := by
  cases h with
  | self =>
    intro criterion hcriterion
    cases hcriterion
    decide
  | exception hmem h =>
    obtain rfl := List.mem_singleton.mp hmem
    cases h with
    | self =>
      intro criterion hcriterion
      cases hcriterion
      decide
    | exception hmem _ => cases hmem

theorem equal_versions_indistinguishable_releaseRule :
    let load (text : String) := (RuleSet.ofTree ⟨text, .all, .linux⟩ browserTree).outcome
    let set := RuleSet.ofRules ⟨1, 0⟩ [releaseRule]
    let hardware (release : List UInt16) (driverVersion : String) : Hardware :=
      { os := .macOs, release := some ⟨release⟩, driverVersion }
    (∃ browser browser', Version.parse "20" = .ok browser ∧ Version.parse "20.0.0" = .ok browser' ∧
        browser == browser' ∧ (load "20").isOk ∧ load "20" = load "20.0.0") ∧
      (hardware [10, 6] "8.2").Alike set.rules (hardware [10, 6, 0] "8.2.0") ∧
      ((set.evaluate (hardware [10, 6] "8.2")).activeIds = [1]) ∧
      set.evaluate (hardware [10, 6] "8.2") = set.evaluate (hardware [10, 6, 0] "8.2.0") := by
  intro load set hardware
  obtain ⟨hloads, hevaluates⟩ := equal_versions_indistinguishable
  have hread (text : String) (components : List UInt16)
      (h : (Version.parse text).toOption.map (·.components) = some components) :
      Version.parse text = .ok ⟨components⟩ := by
    obtain ⟨version, hversion, rfl⟩ := Option.map_eq_some_iff.mp h
    exact Report.toOption_eq_some_iff.mp hversion
  have hshort := hread "20" [20] (by decide +kernel)
  have hlong := hread "20.0.0" [20, 0, 0] (by decide +kernel)
  have halike : (hardware [10, 6] "8.2").Alike set.rules (hardware [10, 6, 0] "8.2.0") := by
    refine ⟨.inr ⟨_, _, rfl, rfl, by decide⟩, .inr ⟨?_, ?_⟩, rfl⟩
    · intro rule hmem node hnode
      obtain rfl := List.mem_singleton.mp hmem
      exact notLexical_of_within_releaseRule hnode
    · exact ⟨_, _, hread "8.2" [8, 2] (by decide +kernel),
        hread "8.2.0" [8, 2, 0] (by decide +kernel), by decide⟩
  refine ⟨⟨_, _, hshort, hlong, by decide, by decide +kernel, ?_⟩, halike, by decide +kernel, ?_⟩
  · exact hloads _ _ _ _ hshort hlong (by decide) .all .linux browserTree
  · exact hevaluates set _ _ halike

end GpuRules
