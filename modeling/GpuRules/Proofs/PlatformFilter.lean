import GpuRules.Proofs.Reading.Value
import GpuRules.Config.Load
import Mathlib.Data.List.Basic

/-! Leaving out the rules for other platforms while loading does not show in an evaluation on this
one. The filter decides from the system that a rule names, the evaluation from the rule's criterion;
what the first drops the second never admits. -/

namespace GpuRules

open Config

/-- Without filter everything is kept, so a filter acts on the set that a load without one makes. -/
theorem ofTree_eq_restrict (options : LoadOptions) (platform : OsType) (tree : Json) :
    RuleSet.ofTree options tree =
      RuleSet.ofTree ⟨options.browserVersion, .all, platform⟩ tree >>= fun set =>
        pure (set.restrict options.keeps) := by
  unfold RuleSet.ofTree
  simp only [Report.bind_assoc, Report.pure_bind]
  have hall (set : RuleSet) :
      set.restrict (LoadOptions.keeps ⟨options.browserVersion, .all, platform⟩) = set := by
    have hkeeps : LoadOptions.keeps ⟨options.browserVersion, .all, platform⟩ = fun _ => true := rfl
    simp [RuleSet.restrict, hkeeps]
  simp only [hall]

/-- A rule that is dropped asks for another system, or asks for one that nobody understands. -/
theorem appliesOn_eq_false_of_not_keeps {options : LoadOptions} {rule : Rule}
    (hdropped : options.keeps rule = false) (hardware : Hardware) :
    rule.appliesOn options.platform hardware = false := by
  rw [Rule.appliesOn_eq]
  unfold LoadOptions.keeps Rule.os? at hdropped
  cases hfilter : options.filter with
  | all => simp [hfilter] at hdropped
  | currentOs =>
    simp only [hfilter] at hdropped
    cases hos : rule.conditions.os with
    | none =>
      -- Had nothing been asked for, the rule would be for any system and kept.
      have hmalformed : Slot.os ∈ rule.malformed := by
        by_contra hnot
        simp [hos, hnot] at hdropped
      have hnonempty : rule.malformed.isEmpty = false := by
        rw [List.isEmpty_eq_false_iff]
        exact List.ne_nil_of_mem hmalformed
      rw [hnonempty, Bool.false_and, Bool.false_and]
    | some criterion =>
      have hother : (criterion.os == options.platform || criterion.os == .any) = false := by
        simpa [hos, Bool.or_comm] using hdropped
      have hholds : rule.conditions.holds options.platform hardware .os = false := by
        simp [Conditions.holds, hos, OsCriterion.contains, hother]
      have hadmits : rule.conditions.admits options.platform hardware = false := by
        rw [← Bool.not_eq_true, Conditions.admits_iff]
        intro hall
        simp [hall .os] at hholds
      rw [hadmits, Bool.and_false, Bool.false_and]

theorem evaluate_filter {keeps : Rule → Bool} {rules : List Rule} {hardware : Hardware}
    (h : ∀ rule ∈ rules, keeps rule = false → rule.applies hardware = false) :
    evaluate (rules.filter keeps) hardware = evaluate rules hardware := by
  have hfilter : (rules.filter keeps).filter (·.applies hardware) =
      rules.filter (·.applies hardware) := by
    rw [List.filter_filter]
    apply List.filter_congr
    intro rule hrule
    cases hkeeps : keeps rule with
    | true => exact Bool.and_true _
    | false => rw [h rule hrule hkeeps, Bool.false_and]
  unfold evaluate
  rw [hfilter]

/-- Two loads of one tree, one with the filter and one without. -/
theorem ofTree_currentOs (browserVersion : String) (platform other : OsType) (tree : Json) :
    (RuleSet.ofTree ⟨browserVersion, .currentOs, platform⟩ tree).events =
        (RuleSet.ofTree ⟨browserVersion, .all, other⟩ tree).events ∧
      match (RuleSet.ofTree ⟨browserVersion, .all, other⟩ tree).outcome with
      | .error error =>
        (RuleSet.ofTree ⟨browserVersion, .currentOs, platform⟩ tree).outcome = .error error
      | .ok full => ∃ part,
        (RuleSet.ofTree ⟨browserVersion, .currentOs, platform⟩ tree).outcome = .ok part ∧
        part.version = full.version ∧ part.maxId = full.maxId ∧ part.unknown = full.unknown ∧
        part.rules.Sublist full.rules ∧
        ∀ hardware, hardware.os.resolve = platform →
          part.evaluate hardware = full.evaluate hardware := by
  rw [ofTree_eq_restrict ⟨browserVersion, .currentOs, platform⟩ other tree]
  constructor
  · rw [Report.events_bind]
    cases (RuleSet.ofTree ⟨browserVersion, .all, other⟩ tree).outcome with
    | error error => exact List.append_nil _
    | ok full => exact List.append_nil _
  · rw [Report.outcome_bind]
    cases (RuleSet.ofTree ⟨browserVersion, .all, other⟩ tree).outcome with
    | error error => rfl
    | ok full =>
      refine ⟨_, rfl, rfl, rfl, rfl, List.filter_sublist, ?_⟩
      intro hardware hplatform
      apply evaluate_filter
      intro rule _ hdropped
      unfold Rule.applies
      rw [hplatform]
      exact appliesOn_eq_false_of_not_keeps hdropped hardware

def systemsTree : Json :=
  let rule (id : Int) (os : String) : Json := .object [
    ("id", .integer id),
    ("blacklist", .array [.string "all"]),
    ("os", .object [("type", .string os)])]
  .object [
    ("version", .string "1.0"),
    ("entries", .array [rule 1 "win", rule 2 "linux", rule 3 "beos"])]

theorem ofTree_currentOs_systemsTree :
    ∃ full part, (RuleSet.ofTree ⟨"0", .all, .any⟩ systemsTree).outcome = .ok full ∧
      (RuleSet.ofTree ⟨"0", .currentOs, .windows⟩ systemsTree).outcome = .ok part ∧
      full.rules.length = 3 ∧ part.rules.Sublist full.rules ∧
      OsType.windows.resolve = .windows ∧
      part.evaluate { os := .windows } = full.evaluate { os := .windows } := by
  have hok : (RuleSet.ofTree ⟨"0", .all, .any⟩ systemsTree).outcome.toOption.map
      (·.rules.length) = some 3 := by decide +kernel
  obtain ⟨full, hfull, hlength⟩ := Option.map_eq_some_iff.mp hok
  rw [Report.toOption_eq_some_iff] at hfull
  have hloads := (ofTree_currentOs "0" .windows .any systemsTree).2
  rw [hfull] at hloads
  obtain ⟨part, hpart, -, -, -, hsublist, heval⟩ := hloads
  exact ⟨full, part, hfull, hpart, hlength, hsublist, rfl, heval { os := .windows } rfl⟩

end GpuRules
