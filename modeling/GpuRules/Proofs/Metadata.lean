import GpuRules.Proofs.Diagnostics
import GpuRules.Proofs.Exceptions
import GpuRules.Proofs.Reading.Value
import GpuRules.Proofs.RuleLists
import GpuRules.Rule.Setting
import Mathlib.Data.List.Forall2

/-! Rules apart from their criteria. Whether a rule applies is read off its criteria and those of
its exceptions; ids, flags, descriptions, bugs and features only say what becomes of a rule that
does. This holds at every depth, so an exception that has an id or is disabled spares hardware like
any other. -/

namespace GpuRules

/-- The setting says nothing of the hardware that a rule applies to. -/
def Setting.isMetadata : Setting → Bool
  | .disabled _ | .description _ | .crBugs _ | .webkitBugs _ | .features _ => true
  | _ => false

namespace Rule

open Config (forall_mem_iff_of_forall₂)

/-- Two rules with the same criteria, whose exceptions are alike one by one. Of slots that could
not be built it only matters whether there are any; all else may differ, in each rule of the two
trees. -/
inductive AsksAlike : Rule → Rule → Prop
  | node {rule rule' : Rule} : rule.conditions = rule'.conditions →
      (rule.malformed = [] ↔ rule'.malformed = []) →
      List.Forall₂ AsksAlike rule.exceptions rule'.exceptions → AsksAlike rule rule'

theorem AsksAlike.refl (rule : Rule) : rule.AsksAlike rule := by
  induction rule using inductionOn with
  | step rule ih => exact .node rfl Iff.rfl (List.forall₂_same.mpr ih)

variable {rule rule' : Rule}

theorem AsksAlike.appliesOn_iff (h : rule.AsksAlike rule') (os : OsType) (hardware : Hardware) :
    rule.appliesOn os hardware ↔ rule'.appliesOn os hardware := by
  induction rule using inductionOn generalizing rule' with
  | step rule ih =>
    obtain ⟨hconditions, hmalformed, hexceptions⟩ := h
    -- Exceptions that correspond to one another apply alike by induction.
    have hspared : (∀ exception ∈ rule.exceptions, ¬exception.appliesOn os hardware) ↔
        ∀ exception ∈ rule'.exceptions, ¬exception.appliesOn os hardware := by
      apply forall_mem_iff_of_forall₂ ((List.forall₂_and_left _ _).mpr ⟨ih, hexceptions⟩)
      rintro exception exception' ⟨hiff, halike⟩
      rw [hiff halike]
    rw [Rule.appliesOn_iff, Rule.appliesOn_iff, hconditions, hmalformed, hspared]

theorem AsksAlike.applies_eq (h : rule.AsksAlike rule') (hardware : Hardware) :
    rule.applies hardware = rule'.applies hardware :=
  Bool.eq_iff_iff.mpr (h.appliesOn_iff hardware.os.resolve hardware)

/-! ### Rules made by hand -/

theorem AsksAlike.set_metadata (h : rule.AsksAlike rule') {setting : Setting}
    (hmetadata : setting.isMetadata) : (rule.set setting).AsksAlike rule' := by
  obtain ⟨hconditions, hmalformed, hexceptions⟩ := h
  cases setting <;> first
    | exact .node hconditions hmalformed hexceptions
    | cases hmetadata

theorem AsksAlike.set (h : rule.AsksAlike rule') (setting : Setting) :
    (rule.set setting).AsksAlike (rule'.set setting) := by
  obtain ⟨hconditions, hmalformed, hexceptions⟩ := h
  cases setting with
  | exception other =>
    exact .node hconditions hmalformed (List.rel_append hexceptions (.cons (.refl other) .nil))
  | _ => exact .node (by simp only [Rule.set, hconditions]) hmalformed hexceptions

theorem asksAlike_ofSettings (id : UInt32) (settings : List Setting) :
    (ofSettings id settings).AsksAlike (ofSettings 0 (settings.filter (!·.isMetadata))) := by
  have hempty : AsksAlike { id } { id := 0 } := .node rfl Iff.rfl .nil
  unfold ofSettings
  generalize ({ id } : Rule) = rule, ({ id := 0 } : Rule) = rule' at hempty
  induction settings generalizing rule rule' with
  | nil => exact hempty
  | cons setting settings ih =>
    rw [List.foldl_cons]
    cases hmetadata : setting.isMetadata with
    | true =>
      rw [List.filter_cons_of_neg (by simp [hmetadata])]
      exact ih _ _ (hempty.set_metadata hmetadata)
    | false =>
      rw [List.filter_cons_of_pos (by simp [hmetadata]), List.foldl_cons]
      exact ih _ _ (hempty.set setting)

theorem applies_set_exception (rule exception : Rule) (hardware : Hardware) :
    (rule.set (.exception exception)).applies hardware ↔
      rule.applies hardware ∧ ¬exception.applies hardware := by
  unfold applies
  rw [Rule.appliesOn_iff, Rule.appliesOn_iff, set, List.forall_mem_append,
    List.forall_mem_singleton]
  tauto

end Rule

/-! ### Rule sets -/

/-- Rules that ask alike apply to the same hardware. So an exception spares just what it would
without an id, a flag, features and the like, and of two rule sets that ask alike rule by rule the
same places are active. -/
theorem matching_ignores_metadata :
    (∀ rule rule' : Rule, rule.AsksAlike rule' →
      ∀ hardware, rule.applies hardware = rule'.applies hardware) ∧
    (∀ (rule : Rule) (id : UInt32) (settings : List Setting) (hardware : Hardware),
      let built := Rule.ofSettings id settings
      let plain := Rule.ofSettings 0 (settings.filter (!·.isMetadata))
      (rule.set (.exception built)).applies hardware =
        (rule.set (.exception plain)).applies hardware ∧
      ((rule.set (.exception built)).applies hardware ↔
        rule.applies hardware ∧ ¬plain.applies hardware)) ∧
    ∀ set set' : RuleSet, List.Forall₂ Rule.AsksAlike set.rules set'.rules → ∀ hardware,
      (set.evaluate hardware).active =
        (activePositions hardware set.rules).map (fun i => (set.rules.get i).active) ∧
      (set'.evaluate hardware).active =
        (activePositions hardware set'.rules).map (fun i => (set'.rules.get i).active) ∧
      set.rules.length = set'.rules.length ∧
      ∀ (i : Nat) (h : i < set.rules.length) (h' : i < set'.rules.length),
        (⟨i, h⟩ ∈ activePositions hardware set.rules ↔
          ⟨i, h'⟩ ∈ activePositions hardware set'.rules) ∧
        (set.Obtained → set'.Obtained →
          (set.rules[i].id ∈ (set.evaluate hardware).activeIds ↔
            set'.rules[i].id ∈ (set'.evaluate hardware).activeIds)) := by
  refine ⟨fun rule rule' halike => halike.applies_eq, ?_, ?_⟩
  · intro rule id settings hardware built plain
    have happlies := (Rule.asksAlike_ofSettings id settings).applies_eq hardware
    have hspared (exception : Rule) := Rule.applies_set_exception rule exception hardware
    constructor
    · rw [Bool.eq_iff_iff, hspared, hspared, happlies]
    · rw [hspared, happlies]
  · intro set set' halike hardware
    refine ⟨active_evaluate_positions hardware set.rules,
      active_evaluate_positions hardware set'.rules, halike.length_eq, ?_⟩
    intro i h h'
    have happlies := (halike.get h h').applies_eq hardware
    constructor
    · rw [mem_activePositions_iff, mem_activePositions_iff, happlies]
    · intro hobtained hobtained'
      unfold RuleSet.evaluate
      rw [mem_activeIds_iff hardware hobtained.nodup_ids (List.getElem_mem h),
        mem_activeIds_iff hardware hobtained'.nodup_ids (List.getElem_mem h')]
      exact Bool.eq_iff_iff.mp happlies

def vendorRule (rule exception inner : RuleBody) : Rule :=
  ⟨{ rule with conditions := { vendorId := 1 } },
    [⟨{ exception with conditions := { deviceIds := [5] } },
      [⟨{ inner with conditions := { multiGpuStyle := some .optimus } }, []⟩]⟩]⟩

/-- Every rule of the first two trees has metadata of its own, and the two others are malformed in
different slots. -/
theorem matching_ignores_metadata_vendorRule :
    let flagged := vendorRule { id := 1, features := .ofFeature .webgl }
      { id := 7, disabled := true, features := .all } { unknownFields := true }
    let plain := vendorRule { id := 9, disabled := true, features := .all, crBugs := [3] } {} {}
    let set := RuleSet.ofRules ⟨1, 0⟩ [{ id := 2, features := .all, malformed := [.os] }, flagged]
    let set' := RuleSet.ofRules ⟨1, 0⟩
      [{ id := 1, features := .all, malformed := [.glVendor, .os] }, plain]
    let spared : Hardware := { vendorId := 1, deviceId := 5 }
    let optimus : Hardware := { spared with optimus := true }
    flagged.AsksAlike plain ∧ List.Forall₂ Rule.AsksAlike set.rules set'.rules ∧
      set.Obtained ∧ set'.Obtained ∧
      (plain.applies spared = false ∧ flagged.applies spared = false) ∧
      (plain.applies optimus ∧ flagged.applies optimus) ∧
      (1 ∈ (set.evaluate optimus).activeIds ↔ 9 ∈ (set'.evaluate optimus).activeIds) ∧
      (set.evaluate optimus).activeIds = [1] ∧ (set'.evaluate optimus).activeIds = [9] := by
  intro flagged plain set set' spared optimus
  have halike : flagged.AsksAlike plain := by
    refine .node rfl Iff.rfl (.cons (.node rfl Iff.rfl (.cons ?_ .nil)) .nil)
    exact .node rfl Iff.rfl .nil
  have hmalformed : List.Forall₂ Rule.AsksAlike set.rules set'.rules := by
    refine .cons (.node rfl ?_ .nil) (.cons halike .nil)
    exact iff_of_false (List.cons_ne_nil _ _) (List.cons_ne_nil _ _)
  have hbuilt (rules : List Rule) (h : RuleSet.fault? 0 [] rules = none) :
      (RuleSet.ofRules ⟨1, 0⟩ rules).Obtained := by
    have hbuild : RuleSet.build ⟨1, 0⟩ rules = .ok (RuleSet.ofRules ⟨1, 0⟩ rules) := by
      unfold RuleSet.build
      rw [h]
    exact .build hbuild
  have hobtained : set.Obtained := hbuilt _ rfl
  have hobtained' : set'.Obtained := hbuilt _ rfl
  obtain ⟨happlies, -, hsets⟩ := matching_ignores_metadata
  obtain ⟨-, -, -, hplaces⟩ := hsets set set' hmalformed optimus
  have hplain : plain.applies spared = false := by decide
  have hactive : plain.applies optimus := by decide
  exact ⟨halike, hmalformed, hobtained, hobtained', ⟨hplain, happlies _ _ halike spared ▸ hplain⟩,
    ⟨hactive, happlies _ _ halike optimus ▸ hactive⟩,
    (hplaces 1 (by decide) (by decide)).2 hobtained hobtained', by decide, by decide⟩

end GpuRules
