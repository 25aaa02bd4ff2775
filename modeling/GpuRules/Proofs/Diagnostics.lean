import GpuRules.Proofs.Coherence
import GpuRules.Proofs.RuleLists

/-! What an evaluation says of its reasons. The features are put together while the rules are gone
through, and the ids and reasons are asked for later; but both go by the rules that are active, so
a feature is disabled just if some id is listed for it. Where every rule has features, each active
rule is listed for some feature, and listed once. -/

namespace GpuRules

namespace Evaluation

variable {evaluation : Evaluation} {mask mask' : FeatureMask} {disabled : Bool} {id : UInt32}

theorem mem_idsTouching :
    id ∈ evaluation.idsTouching mask disabled ↔
      ∃ rule ∈ evaluation.active,
        rule.features.intersects mask ∧ rule.disabled = disabled ∧ rule.id = id := by
  simp only [idsTouching, List.mem_map, List.mem_filter, Bool.and_eq_true, beq_iff_eq, and_assoc]

theorem idsTouching_ne_nil_iff :
    evaluation.idsTouching mask disabled ≠ [] ↔
      ∃ rule ∈ evaluation.active, rule.features.intersects mask ∧ rule.disabled = disabled := by
  simp only [idsTouching, ne_eq, List.map_eq_nil_iff, List.filter_eq_nil_iff, not_forall,
    Bool.and_eq_true, beq_iff_eq, not_not, exists_prop]

theorem mem_idsTouching_union :
    id ∈ evaluation.idsTouching (mask ∪ mask') disabled ↔
      id ∈ evaluation.idsTouching mask disabled ∨ id ∈ evaluation.idsTouching mask' disabled := by
  simp only [mem_idsTouching, FeatureMask.intersects_union_iff, or_and_right, and_or_left,
    exists_or]

theorem idsTouching_sublist (evaluation : Evaluation) (mask : FeatureMask) (disabled : Bool) :
    (evaluation.idsTouching mask disabled).Sublist evaluation.activeIds :=
  List.filter_sublist.map _

theorem activeIds_sublist (rules : List Rule) (hardware : Hardware) :
    (evaluate rules hardware).activeIds.Sublist (rules.map (·.id)) := by
  have hids : (evaluate rules hardware).activeIds =
      (rules.filter (·.applies hardware)).map (·.id) := List.map_map
  rw [hids]
  exact List.filter_sublist.map _

theorem features_intersects_iff (rules : List Rule) (hardware : Hardware) (mask : FeatureMask) :
    (evaluate rules hardware).features.intersects mask ↔
      (evaluate rules hardware).idsTouching mask false ≠ [] := by
  have hfeatures : (evaluate rules hardware).features =
      .union (((evaluate rules hardware).active.filter (!·.disabled)).map ActiveRule.features) :=
    rfl
  rw [hfeatures, FeatureMask.union_intersects_iff, idsTouching_ne_nil_iff]
  simp only [List.mem_map, List.mem_filter, Bool.not_eq_true']
  constructor
  · rintro ⟨_, ⟨rule, ⟨hmem, henabled⟩, rfl⟩, hmask⟩
    exact ⟨rule, hmem, hmask, henabled⟩
  · rintro ⟨rule, hmem, hmask, henabled⟩
    exact ⟨_, ⟨rule, ⟨hmem, henabled⟩, rfl⟩, hmask⟩

/-! ### Rules that all have features -/

section Featured

variable (hfeatures : ∀ rule ∈ evaluation.active, rule.features.isEmpty = false)

include hfeatures

theorem idsTouching_all (disabled : Bool) :
    evaluation.idsTouching .all disabled =
      (evaluation.active.filter (·.disabled == disabled)).map ActiveRule.id := by
  unfold idsTouching
  congr 1
  apply List.filter_congr
  intro rule hmem
  rw [FeatureMask.intersects_all, hfeatures rule hmem]
  rfl

theorem mem_idsTouching_all_of_mem_activeIds (hid : id ∈ evaluation.activeIds) :
    id ∈ evaluation.idsTouching .all false ∨ id ∈ evaluation.idsTouching .all true := by
  obtain ⟨rule, hmem, rfl⟩ := List.mem_map.mp hid
  rw [idsTouching_all hfeatures, idsTouching_all hfeatures]
  cases hdisabled : rule.disabled with
  | false => exact .inl (List.mem_map_of_mem (List.mem_filter.mpr ⟨hmem, by simp [hdisabled]⟩))
  | true => exact .inr (List.mem_map_of_mem (List.mem_filter.mpr ⟨hmem, by simp [hdisabled]⟩))

theorem forall₂_reasons :
    List.Forall₂ (fun id reason => ∃ rule ∈ evaluation.active,
        rule.disabled = false ∧ rule.id = id ∧ rule.reason = reason)
      (evaluation.idsTouching .all false) evaluation.reasons := by
  have henabled : evaluation.active.filter (·.disabled == false) =
      evaluation.active.filter (!·.disabled) := by
    apply List.filter_congr
    intro rule _
    cases rule.disabled <;> rfl
  rw [idsTouching_all hfeatures, henabled, reasons, List.forall₂_map_left_iff,
    List.forall₂_map_right_iff, List.forall₂_same]
  intro rule hmem
  obtain ⟨hactive, hdisabled⟩ := List.mem_filter.mp hmem
  exact ⟨rule, hactive, by simpa using hdisabled, rfl, rfl⟩

end Featured

theorem disjoint_idsTouching (h : evaluation.activeIds.Nodup) :
    (evaluation.idsTouching mask false).Disjoint (evaluation.idsTouching mask' true) := by
  intro id hfalse htrue
  obtain ⟨rule, hrule, -, hdisabled, rfl⟩ := mem_idsTouching.mp hfalse
  obtain ⟨other, hother, -, henabled, hsame⟩ := mem_idsTouching.mp htrue
  obtain rfl := List.inj_on_of_nodup_map h hother hrule hsame
  rw [hdisabled] at henabled
  cases henabled

end Evaluation

namespace RuleSet

/-- The rule sets that there are: the empty one, those that are built, and those that are loaded. -/
inductive Obtained : RuleSet → Prop
  | empty : Obtained {}
  | build {version : SchemaVersion} {rules : List Rule} {set : RuleSet} :
      RuleSet.build version rules = .ok set → Obtained set
  | load {options : LoadOptions} {tree : Json} {set : RuleSet} :
      (ofTree options tree).outcome = .ok set → Obtained set

theorem Obtained.nodup_ids {set : RuleSet} (h : Obtained set) : (set.rules.map (·.id)).Nodup := by
  cases h with
  | empty => exact List.nodup_nil
  | build hbuild => exact (coherent_of_build hbuild).2.distinct
  | load hload =>
    obtain ⟨version, items, browser, rules, -, -, -, -, hnodup, rfl⟩ :=
      Config.outcome_ofTree_eq_ok_iff.mp hload
    exact hnodup.sublist (List.filter_sublist.map _)

theorem features_of_build {version : SchemaVersion} {rules : List Rule} {set : RuleSet}
    (h : build version rules = .ok set) : ∀ rule ∈ set.rules, rule.features.isEmpty = false := by
  obtain ⟨hfault, rfl⟩ := of_build_eq_ok h
  intro rule hmem
  exact ((faultless_of_fault?_eq_none hfault).1 rule hmem).2.2

end RuleSet

/-- The rules that an evaluation lists for features explain just the features that it disables.
Where every rule has features, the lists for all features are apart and take in every active rule,
and the reasons are those of the rules listed as not disabled, one for each, in order. -/
theorem diagnostics_explain_features (hardware : Hardware) (set : RuleSet) :
    (∀ mask, (set.evaluate hardware).features.intersects mask ↔
      (set.evaluate hardware).idsTouching mask false ≠ []) ∧
    (∀ mask mask' disabled id, id ∈ (set.evaluate hardware).idsTouching (mask ∪ mask') disabled ↔
      id ∈ (set.evaluate hardware).idsTouching mask disabled ∨
        id ∈ (set.evaluate hardware).idsTouching mask' disabled) ∧
    (∀ version rules, RuleSet.build version rules = .ok set →
      ∀ rule ∈ set.rules, rule.features.isEmpty = false) ∧
    (set.Obtained → (∀ rule ∈ set.rules, rule.features.isEmpty = false) →
      let enabled := (set.evaluate hardware).idsTouching .all false
      let disabled := (set.evaluate hardware).idsTouching .all true
      enabled.Disjoint disabled ∧ enabled.Nodup ∧ disabled.Nodup ∧
        enabled.Sublist (set.evaluate hardware).activeIds ∧
        disabled.Sublist (set.evaluate hardware).activeIds ∧
        (∀ id ∈ (set.evaluate hardware).activeIds, id ∈ enabled ∨ id ∈ disabled) ∧
        List.Forall₂ (fun id reason => ∃ rule ∈ set.rules,
            rule.applies hardware ∧ rule.disabled = false ∧ rule.id = id ∧
              reason = ⟨rule.description, rule.crBugs, rule.webkitBugs⟩)
          enabled (set.evaluate hardware).reasons) := by
  refine ⟨Evaluation.features_intersects_iff set.rules hardware,
    fun _ _ _ _ => Evaluation.mem_idsTouching_union,
    fun _ _ hbuild => RuleSet.features_of_build hbuild, ?_⟩
  intro hobtained hfeatures enabled disabled
  have hactive : ∀ rule ∈ (set.evaluate hardware).active, ∃ source ∈ set.rules,
      source.applies hardware ∧ source.active = rule := by
    intro rule hmem
    obtain ⟨source, hsource, rfl⟩ := List.mem_map.mp hmem
    obtain ⟨hrule, happlies⟩ := List.mem_filter.mp hsource
    exact ⟨source, hrule, happlies, rfl⟩
  have hfeatured : ∀ rule ∈ (set.evaluate hardware).active, rule.features.isEmpty = false := by
    intro rule hmem
    obtain ⟨source, hsource, -, rfl⟩ := hactive rule hmem
    exact hfeatures source hsource
  have hids : (set.evaluate hardware).activeIds.Nodup :=
    (Evaluation.activeIds_sublist set.rules hardware).nodup hobtained.nodup_ids
  have hsublist := (set.evaluate hardware).idsTouching_sublist .all
  refine ⟨Evaluation.disjoint_idsTouching hids, (hsublist false).nodup hids,
    (hsublist true).nodup hids, hsublist false, hsublist true,
    fun _ => Evaluation.mem_idsTouching_all_of_mem_activeIds hfeatured, ?_⟩
  apply (Evaluation.forall₂_reasons hfeatured).imp
  rintro id reason ⟨rule, hmem, hdisabled, rfl, rfl⟩
  obtain ⟨source, hsource, happlies, rfl⟩ := hactive rule hmem
  exact ⟨source, hsource, happlies, hdisabled, rfl, rfl⟩

/-- Three rules that apply, the second of them disabled, and one that does not. -/
def explainedRules : List Rule :=
  [{ id := 4, features := .ofFeature .webgl, crBugs := [12] },
    { id := 2, disabled := true, features := .all },
    { id := 9, features := .ofFeature .flash3d, conditions := { vendorId := 8 } },
    { id := 7, features := .ofFeature .multisampling }]

theorem diagnostics_explain_features_explainedRules :
    let set := RuleSet.ofRules ⟨1, 0⟩ explainedRules
    RuleSet.build ⟨1, 0⟩ explainedRules = .ok set ∧ set.Obtained ∧
      (∀ rule ∈ set.rules, rule.features.isEmpty = false) ∧
      (set.evaluate {}).activeIds = [4, 2, 7] ∧
      (set.evaluate {}).idsTouching .all false = [4, 7] ∧
      (set.evaluate {}).idsTouching .all true = [2] ∧
      ((set.evaluate {}).idsTouching .all false).Disjoint
        ((set.evaluate {}).idsTouching .all true) ∧
      (set.evaluate {}).features.intersects (.ofFeature .flash3d) = false ∧
      (set.evaluate {}).idsTouching (.ofFeature .flash3d) false = [] := by
  intro set
  obtain ⟨hexplain, -, hbuilt, hlists⟩ := diagnostics_explain_features {} set
  have hbuild : RuleSet.build ⟨1, 0⟩ explainedRules = .ok set := rfl
  have hfeatures := hbuilt ⟨1, 0⟩ explainedRules hbuild
  obtain ⟨hdisjoint, -⟩ := hlists (.build hbuild) hfeatures
  have hnone : (set.evaluate {}).idsTouching (.ofFeature .flash3d) false = [] := by decide
  have hintersects : (set.evaluate {}).features.intersects (.ofFeature .flash3d) = false := by
    rw [← Bool.not_eq_true, hexplain, hnone]
    exact fun hne => hne rfl
  exact ⟨hbuild, .build hbuild, hfeatures, by decide, by decide, by decide, hdisjoint, hintersects,
    hnone⟩

end GpuRules
