import GpuRules.Evaluation
import GpuRules.Proofs.Features
import Mathlib.Data.List.FinRange
import Mathlib.Data.List.Induction

/-! Evaluations of lists of rules. Whether one rule applies has nothing to do with the others, so an
evaluation can be made rule by rule, two lists are evaluated together as they are apart, and rules
in another order are active in that order. -/

namespace GpuRules

def Evaluation.take (hardware : Hardware) (evaluation : Evaluation) (rule : Rule) : Evaluation :=
  if rule.applies hardware then
    { features :=
        if rule.disabled then evaluation.features else evaluation.features ∪ rule.features
      active := evaluation.active ++ [rule.active] }
  else evaluation

section Lists

variable {α : Type} (hardware : Hardware)

theorem active_evaluate_map (rule : α → Rule) (items : List α) :
    (evaluate (items.map rule) hardware).active =
      (items.filter fun item => (rule item).applies hardware).map fun item =>
        (rule item).active := by
  unfold evaluate
  dsimp only
  rw [List.filter_map, List.map_map]
  rfl

theorem activeIds_evaluate_map (rule : α → Rule) (items : List α) :
    (evaluate (items.map rule) hardware).activeIds =
      (items.filter fun item => (rule item).applies hardware).map fun item => (rule item).id := by
  unfold Evaluation.activeIds
  rw [active_evaluate_map, List.map_map]
  rfl

theorem mem_activeIds_iff {rules : List Rule} (hnodup : (rules.map (·.id)).Nodup) {rule : Rule}
    (hmem : rule ∈ rules) :
    rule.id ∈ (evaluate rules hardware).activeIds ↔ rule.applies hardware := by
  have hids := activeIds_evaluate_map hardware id rules
  rw [List.map_id] at hids
  rw [hids, List.mem_map]
  constructor
  · rintro ⟨other, hother, hid⟩
    obtain ⟨hother, happlies⟩ := List.mem_filter.mp hother
    rwa [← List.inj_on_of_nodup_map hnodup hother hmem hid]
  · intro happlies
    exact ⟨rule, List.mem_filter.mpr ⟨hmem, happlies⟩, rfl⟩

theorem features_evaluate_map (rule : α → Rule) (items : List α) :
    (evaluate (items.map rule) hardware).features =
      .union ((items.filter fun item => (rule item).applies hardware && !(rule item).disabled).map
        fun item => (rule item).features) := by
  have hfeatures : (evaluate (items.map rule) hardware).features =
      .union (((evaluate (items.map rule) hardware).active.filter (!·.disabled)).map
        ActiveRule.features) := rfl
  rw [hfeatures, active_evaluate_map, List.filter_map, List.map_map, List.filter_filter]
  congr 2
  apply List.filter_congr
  intro item _
  exact Bool.and_comm _ _

theorem features_evaluate (rules : List Rule) :
    (evaluate rules hardware).features =
      .union ((rules.filter fun rule => rule.applies hardware && !rule.disabled).map
        (·.features)) := by
  simpa using features_evaluate_map hardware id rules

theorem evaluate_append (rules rules' : List Rule) :
    evaluate (rules ++ rules') hardware =
      { features := (evaluate rules hardware).features ∪ (evaluate rules' hardware).features
        active := (evaluate rules hardware).active ++ (evaluate rules' hardware).active } := by
  unfold evaluate
  dsimp only
  rw [List.filter_append, List.map_append, List.filter_append, List.map_append,
    FeatureMask.union_append]

theorem evaluate_concat (rules : List Rule) (rule : Rule) :
    evaluate (rules ++ [rule]) hardware = (evaluate rules hardware).take hardware rule := by
  rw [evaluate_append]
  unfold Evaluation.take
  cases happlies : rule.applies hardware with
  | false =>
    have hnone : evaluate [rule] hardware = ⟨∅, []⟩ := by
      simp [evaluate, happlies, FeatureMask.union]
    simp [hnone]
  | true =>
    have hone : evaluate [rule] hardware =
        ⟨if rule.disabled then ∅ else rule.features, [rule.active]⟩ := by
      cases hdisabled : rule.disabled <;>
        simp [evaluate, happlies, hdisabled, Rule.active, FeatureMask.union]
    cases hdisabled : rule.disabled <;> simp [hone, hdisabled]

theorem evaluate_eq_foldl (rules : List Rule) :
    evaluate rules hardware = rules.foldl (Evaluation.take hardware) ⟨∅, []⟩ := by
  -- What a pass has made so far is the evaluation of the rules up to the last one taken.
  induction rules using List.reverseRecOn with
  | nil => rfl
  | append_singleton rules rule ih =>
    rw [evaluate_concat, List.foldl_append, ← ih]
    rfl

/-! ### Order, more rules, disabled rules -/

def activePositions (rules : List Rule) : List (Fin rules.length) :=
  (List.finRange rules.length).filter fun i => (rules.get i).applies hardware

theorem mem_activePositions_iff {rules : List Rule} {i : Fin rules.length} :
    i ∈ activePositions hardware rules ↔ (rules.get i).applies hardware := by
  simp [activePositions]

theorem active_evaluate_order (rules : List Rule) (order : List (Fin rules.length)) :
    (evaluate (order.map rules.get) hardware).active =
      (order.filter (· ∈ activePositions hardware rules)).map fun i => (rules.get i).active := by
  rw [active_evaluate_map]
  congr 1
  apply List.filter_congr
  intro i _
  rw [Bool.eq_iff_iff, decide_eq_true_iff, mem_activePositions_iff]

theorem active_evaluate_positions (rules : List Rule) :
    (evaluate rules hardware).active =
      (activePositions hardware rules).map fun i => (rules.get i).active := by
  have hactive := active_evaluate_map hardware rules.get (List.finRange rules.length)
  rwa [List.map_get_finRange] at hactive

variable {hardware}

theorem features_evaluate_of_perm {rules rules' : List Rule} (h : rules.Perm rules') :
    (evaluate rules hardware).features = (evaluate rules' hardware).features := by
  rw [features_evaluate, features_evaluate]
  apply FeatureMask.union_eq_of_mem_iff
  intro mask
  exact ((h.filter _).map _).mem_iff

theorem active_evaluate_of_sublist {rules rules' : List Rule} (h : rules.Sublist rules') :
    (evaluate rules hardware).active.Sublist (evaluate rules' hardware).active :=
  (h.filter _).map _

theorem features_evaluate_of_sublist {rules rules' : List Rule} (h : rules.Sublist rules') :
    (evaluate rules' hardware).features.contains (evaluate rules hardware).features := by
  rw [features_evaluate, features_evaluate]
  exact FeatureMask.union_contains_of_subset ((h.filter _).map _).subset

def disableAt (chosen : Nat → Bool) (rules : List Rule) : List Rule :=
  rules.zipIdx.map fun (rule, i) => { rule with disabled := rule.disabled || chosen i }

theorem Rule.applies_disabled (rule : Rule) (disabled : Bool) :
    ({ rule with disabled } : Rule).applies hardware = rule.applies hardware := by
  unfold Rule.applies
  rw [Rule.appliesOn_eq, Rule.appliesOn_eq]

theorem activeIds_evaluate_disableAt (chosen : Nat → Bool) (rules : List Rule) :
    (evaluate (disableAt chosen rules) hardware).activeIds =
      (evaluate rules hardware).activeIds := by
  have hids := activeIds_evaluate_map hardware Prod.fst rules.zipIdx
  rw [List.zipIdx_map_fst] at hids
  unfold disableAt
  rw [hids, activeIds_evaluate_map]
  simp only [Rule.applies_disabled]

theorem features_evaluate_disableAt (chosen : Nat → Bool) (rules : List Rule) :
    (evaluate (disableAt chosen rules) hardware).features =
      .union ((rules.zipIdx.filter fun (rule, i) =>
        rule.applies hardware && !rule.disabled && !chosen i).map fun (rule, _) =>
          rule.features) := by
  unfold disableAt
  rw [features_evaluate_map]
  congr 2
  apply List.filter_congr
  rintro ⟨rule, i⟩ -
  dsimp only
  rw [Rule.applies_disabled, Bool.not_or, Bool.and_assoc]

theorem features_evaluate_contains_disableAt (chosen : Nat → Bool) (rules : List Rule) :
    (evaluate rules hardware).features.contains
      (evaluate (disableAt chosen rules) hardware).features := by
  have hfeatures := features_evaluate_map hardware Prod.fst rules.zipIdx
  rw [List.zipIdx_map_fst] at hfeatures
  rw [hfeatures, features_evaluate_disableAt]
  apply FeatureMask.union_contains_of_subset
  apply List.map_subset
  apply (List.monotone_filter_right _ _).subset
  rintro ⟨rule, i⟩ hchosen
  simp only [Bool.and_eq_true] at hchosen ⊢
  exact hchosen.1

end Lists

/-- All that is known of a list of rules from its parts: a single pass over it, and how it changes
when rules come after it, change places, are put in between, or are disabled. -/
theorem evaluate_homomorphism (hardware : Hardware) (rules : List Rule) :
    evaluate rules hardware = rules.foldl (Evaluation.take hardware) ⟨∅, []⟩ ∧
      (evaluate rules hardware).active = (rules.filter (·.applies hardware)).map Rule.active ∧
      (evaluate rules hardware).features =
        .union ((rules.filter fun rule => rule.applies hardware && !rule.disabled).map
          (·.features)) ∧
      (∀ more, evaluate (rules ++ more) hardware =
        { features := (evaluate rules hardware).features ∪ (evaluate more hardware).features
          active := (evaluate rules hardware).active ++ (evaluate more hardware).active }) ∧
      (evaluate rules hardware).active =
        (activePositions hardware rules).map (fun i => (rules.get i).active) ∧
      (∀ order : List (Fin rules.length), order.Perm (List.finRange rules.length) →
        (evaluate (order.map rules.get) hardware).features = (evaluate rules hardware).features ∧
        (evaluate (order.map rules.get) hardware).active =
          (order.filter (· ∈ activePositions hardware rules)).map fun i => (rules.get i).active) ∧
      (∀ more, rules.Sublist more →
        (evaluate more hardware).features.contains (evaluate rules hardware).features ∧
        (evaluate rules hardware).activeIds.Sublist (evaluate more hardware).activeIds) ∧
      ∀ chosen,
        (evaluate (disableAt chosen rules) hardware).activeIds =
          (evaluate rules hardware).activeIds ∧
        (evaluate (disableAt chosen rules) hardware).features =
          .union ((rules.zipIdx.filter fun (rule, i) =>
            rule.applies hardware && !rule.disabled && !chosen i).map fun (rule, _) =>
              rule.features) ∧
        (evaluate rules hardware).features.contains
          (evaluate (disableAt chosen rules) hardware).features := by
  refine ⟨evaluate_eq_foldl hardware rules, rfl, features_evaluate hardware rules,
    evaluate_append hardware rules, active_evaluate_positions hardware rules,
    fun order horder => ?_, fun more hmore => ?_, fun chosen => ?_⟩
  · have hperm : (order.map rules.get).Perm rules := by
      simpa using horder.map rules.get
    exact ⟨features_evaluate_of_perm hperm, active_evaluate_order hardware rules order⟩
  · exact ⟨features_evaluate_of_sublist hmore, (active_evaluate_of_sublist hmore).map _⟩
  · exact ⟨activeIds_evaluate_disableAt chosen rules, features_evaluate_disableAt chosen rules,
      features_evaluate_contains_disableAt chosen rules⟩

/-- Two rules that apply, the second of them disabled, with one between them that does not. -/
def threeRules : List Rule :=
  [{ id := 1, features := .ofFeature .webgl },
    { id := 2, conditions := { vendorId := 8 }, features := .ofFeature .flash3d },
    { id := 3, disabled := true, features := .ofFeature .multisampling }]

theorem evaluate_homomorphism_threeRules :
    let order : List (Fin 3) := [2, 0, 1]
    let more := { id := 4, features := .ofFeature .flash3d } :: threeRules
    (order.Perm (List.finRange 3) ∧
        (evaluate (order.map threeRules.get) {}).activeIds = [3, 1] ∧
        (evaluate (order.map threeRules.get) {}).features = .ofFeature .webgl) ∧
      (threeRules.Sublist more ∧
        [1, 3].Sublist (evaluate more {}).activeIds ∧
        (evaluate more {}).features.contains (.ofFeature .webgl)) ∧
      (evaluate (disableAt (· == 0) threeRules) {}).activeIds = [1, 3] ∧
      (evaluate (disableAt (· == 0) threeRules) {}).features = ∅ := by
  intro order more
  have horder : order.Perm (List.finRange 3) := by decide
  have hmore : threeRules.Sublist more := List.sublist_cons_self _ _
  have hids : (evaluate threeRules {}).activeIds = [1, 3] := by decide
  have hfeatures : (evaluate threeRules {}).features = .ofFeature .webgl := by decide
  obtain ⟨-, -, -, -, -, hperm, hsublist, hdisable⟩ := evaluate_homomorphism {} threeRules
  obtain ⟨hpermFeatures, hpermActive⟩ := hperm order horder
  obtain ⟨hcontains, hactive⟩ := hsublist more hmore
  obtain ⟨hkept, hshrunk, -⟩ := hdisable (· == 0)
  refine ⟨⟨horder, ?_, hpermFeatures.trans hfeatures⟩, ⟨hmore, ?_, ?_⟩, hkept.trans hids, ?_⟩
  · unfold Evaluation.activeIds
    rw [hpermActive]
    decide
  · rwa [hids] at hactive
  · rwa [hfeatures] at hcontains
  · rw [hshrunk]
    decide

end GpuRules
