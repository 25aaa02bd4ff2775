import GpuRules.Proofs.Equality.Conditions
import GpuRules.RuleSet

/-! Equal rule sets and their evaluations. Equality is part by part, down to the bounds of criteria,
and two bounds that differ by zeros at the end are equal. Since `=` looks at as many components as
its bound has, equal rules need not apply to the same hardware; they do if corresponding bounds of
`=` have as many components. -/

namespace GpuRules

structure RuleBody.Equal (body body' : RuleBody) : Prop where
  id : body.id = body'.id
  disabled : body.disabled = body'.disabled
  description : body.description = body'.description
  crBugs : body.crBugs = body'.crBugs
  webkitBugs : body.webkitBugs = body'.webkitBugs
  conditions : body.conditions == body'.conditions
  malformed : body.malformed = body'.malformed
  features : body.features = body'.features

theorem RuleBody.equal_of_beq {body body' : RuleBody} (h : body == body') : body.Equal body' := by
  change instBEqRuleBody.beq body body' = true at h
  obtain ⟨⟩ := body
  obtain ⟨⟩ := body'
  simp only [instBEqRuleBody.beq, Bool.and_eq_true, beq_iff_eq] at h
  obtain ⟨h1, h2, h3, h4, h5, h6, h7, h8, -⟩ := h
  exact ⟨h1, h2, h3, h4, h5, h6, h7, h8⟩

mutual

def Rule.SameWidths : Rule → Rule → Prop
  | ⟨body, exceptions⟩, ⟨body', exceptions'⟩ =>
    body.conditions.SameWidths body'.conditions ∧ AllSameWidths exceptions exceptions'

def Rule.AllSameWidths : List Rule → List Rule → Prop
  | rule :: rules, rule' :: rules' => rule.SameWidths rule' ∧ AllSameWidths rules rules'
  | _, _ => True

end

namespace Rule

-- A rule and the list of its exceptions take turns, so both go down together.
mutual

theorem appliesOn_eq_of_beq (os : OsType) (hardware : Hardware) :
    ∀ rule rule' : Rule, rule.beq rule' → rule.SameWidths rule' →
      rule.appliesOn os hardware = rule'.appliesOn os hardware
  | ⟨body, exceptions⟩, ⟨body', exceptions'⟩ => by
    intro h hwidths
    rw [beq, Bool.and_eq_true] at h
    rw [SameWidths] at hwidths
    have hbody := RuleBody.equal_of_beq h.1
    rw [appliesOn, appliesOn, hbody.malformed,
      Conditions.admits_eq_of_beq hbody.conditions hwidths.1,
      anyAppliesOn_eq_of_beq os hardware exceptions exceptions' h.2 hwidths.2]

theorem anyAppliesOn_eq_of_beq (os : OsType) (hardware : Hardware) :
    ∀ rules rules' : List Rule, beqAll rules rules' → AllSameWidths rules rules' →
      anyAppliesOn os hardware rules = anyAppliesOn os hardware rules'
  | [], [] => by
    intro _ _
    rfl
  | rule :: rules, rule' :: rules' => by
    intro h hwidths
    rw [beqAll, Bool.and_eq_true] at h
    rw [AllSameWidths] at hwidths
    rw [anyAppliesOn, anyAppliesOn, appliesOn_eq_of_beq os hardware rule rule' h.1 hwidths.1,
      anyAppliesOn_eq_of_beq os hardware rules rules' h.2 hwidths.2]
  | [], _ :: _ => by
    intro h
    cases h
  | _ :: _, [] => by
    intro h
    cases h

end

theorem active_eq_of_beq {rule rule' : Rule} (h : rule == rule') : rule.active = rule'.active := by
  obtain ⟨body, exceptions⟩ := rule
  obtain ⟨body', exceptions'⟩ := rule'
  change (body == body' && beqAll exceptions exceptions') = true at h
  rw [Bool.and_eq_true] at h
  have hbody := RuleBody.equal_of_beq h.1
  unfold active
  simp only [hbody.id, hbody.disabled, hbody.features, hbody.description, hbody.crBugs,
    hbody.webkitBugs]

theorem applies_eq_of_beq {rule rule' : Rule} (h : rule == rule') (hwidths : rule.SameWidths rule')
    (hardware : Hardware) : rule.applies hardware = rule'.applies hardware :=
  appliesOn_eq_of_beq hardware.os.resolve hardware rule rule' h hwidths

end Rule

theorem active_filter_eq_of_beq {rules rules' : List Rule} (h : Rule.beqAll rules rules')
    (hwidths : Rule.AllSameWidths rules rules') (hardware : Hardware) :
    (rules.filter (·.applies hardware)).map Rule.active =
      (rules'.filter (·.applies hardware)).map Rule.active := by
  induction rules generalizing rules' with
  | nil =>
    cases rules' with
    | nil => rfl
    | cons rule' rules' => cases h
  | cons rule rules ih =>
    cases rules' with
    | nil => cases h
    | cons rule' rules' =>
      rw [Rule.beqAll, Bool.and_eq_true] at h
      rw [Rule.AllSameWidths] at hwidths
      have happlies := Rule.applies_eq_of_beq h.1 hwidths.1 hardware
      have hrest := ih h.2 hwidths.2
      rw [List.filter_cons, List.filter_cons, happlies]
      cases rule'.applies hardware with
      | false => exact hrest
      | true =>
        change rule.active :: _ = rule'.active :: _
        rw [Rule.active_eq_of_beq h.1, hrest]

theorem RuleSet.evaluate_eq_of_beq {set set' : RuleSet} (h : set == set')
    (hwidths : Rule.AllSameWidths set.rules set'.rules) (hardware : Hardware) :
    set.evaluate hardware = set'.evaluate hardware := by
  obtain ⟨version, rules, maxId, unknown⟩ := set
  obtain ⟨version', rules', maxId', unknown'⟩ := set'
  change (version == version' && (rules == rules' && (maxId == maxId' && unknown == unknown')))
    = true at h
  simp only [Bool.and_eq_true] at h
  rw [← Rule.beqAll_eq_beq] at h
  unfold evaluate GpuRules.evaluate
  rw [active_filter_eq_of_beq h.2.1 hwidths hardware]

/-- Equal rules apply to the same hardware and equal rule sets evaluate alike if corresponding
bounds of `=` have as many components. Equal criteria contain the same versions in this case
only. -/
theorem behaves_eq_of_beq :
    (∀ rule rule' : Rule, rule == rule' → rule.SameWidths rule' →
      ∀ hardware, rule.applies hardware = rule'.applies hardware) ∧
    (∀ set set' : RuleSet, set == set' → Rule.AllSameWidths set.rules set'.rules →
      ∀ hardware, set.evaluate hardware = set'.evaluate hardware) ∧
    ∀ criterion criterion' : VersionCriterion, criterion == criterion' →
      ((∀ candidate, criterion.contains candidate = criterion'.contains candidate) ↔
        criterion.SameWidth criterion') := by
  refine ⟨?_, ?_, ?_⟩
  · intro rule rule' h hwidths hardware
    exact Rule.applies_eq_of_beq h hwidths hardware
  · intro set set' h hwidths hardware
    exact RuleSet.evaluate_eq_of_beq h hwidths hardware
  · intro criterion criterion' h
    exact VersionCriterion.contains_eq_iff_sameWidth h

def driverRule (test : Comparison Version) : Rule where
  id := 1
  conditions := { driverVersion := some ⟨.numerical, test⟩ }
  features := .ofFeature .webgl

def driverSet (test : Comparison Version) : RuleSet :=
  .ofRules ⟨1, 0⟩ [driverRule test]

theorem behaves_eq_of_beq_driverSet :
    (driverRule (.lt ⟨[10, 6]⟩) == driverRule (.lt ⟨[10, 6, 0]⟩)) ∧
      (driverSet (.lt ⟨[10, 6]⟩) == driverSet (.lt ⟨[10, 6, 0]⟩)) ∧
      (∀ hardware, (driverRule (.lt ⟨[10, 6]⟩)).applies hardware =
        (driverRule (.lt ⟨[10, 6, 0]⟩)).applies hardware) ∧
      (∀ hardware, (driverSet (.lt ⟨[10, 6]⟩)).evaluate hardware =
        (driverSet (.lt ⟨[10, 6, 0]⟩)).evaluate hardware) ∧
      ∀ candidate, VersionCriterion.contains ⟨.numerical, .lt ⟨[10, 6]⟩⟩ candidate =
        VersionCriterion.contains ⟨.numerical, .lt ⟨[10, 6, 0]⟩⟩ candidate := by
  obtain ⟨hrules, hsets, hcriteria⟩ := behaves_eq_of_beq
  have hrule : driverRule (.lt ⟨[10, 6]⟩) == driverRule (.lt ⟨[10, 6, 0]⟩) := by decide +kernel
  have hset : driverSet (.lt ⟨[10, 6]⟩) == driverSet (.lt ⟨[10, 6, 0]⟩) := by decide +kernel
  have hcriterion : (⟨.numerical, .lt ⟨[10, 6]⟩⟩ : VersionCriterion) ==
      ⟨.numerical, .lt ⟨[10, 6, 0]⟩⟩ := by decide +kernel
  have hwidth : VersionCriterion.SameWidth ⟨.numerical, .lt ⟨[10, 6]⟩⟩
      ⟨.numerical, .lt ⟨[10, 6, 0]⟩⟩ := by
    intro bound bound' htest
    cases htest
  have hwidths : (driverRule (.lt ⟨[10, 6]⟩)).SameWidths (driverRule (.lt ⟨[10, 6, 0]⟩)) := by
    unfold driverRule Rule.SameWidths Rule.AllSameWidths
    refine ⟨⟨?_, ?_, ?_⟩, trivial⟩
    · intro criterion hsome
      cases hsome
    · intro criterion hsome criterion' hsome'
      cases hsome
      cases hsome'
      exact hwidth
    · intro criterion hsome
      cases hsome
  have hallWidths : Rule.AllSameWidths (driverSet (.lt ⟨[10, 6]⟩)).rules
      (driverSet (.lt ⟨[10, 6, 0]⟩)).rules := by
    unfold driverSet RuleSet.ofRules Rule.AllSameWidths Rule.AllSameWidths
    exact ⟨hwidths, trivial⟩
  exact ⟨hrule, hset, hrules _ _ hrule hwidths, hsets _ _ hset hallWidths,
    (hcriteria _ _ hcriterion).mpr hwidth⟩

/-- Under `=` the bounds `10.6` and `10.6.0` are equal, and the driver `10.6.3` tells them apart. -/
theorem driverSet_beq_and_ne :
    (driverSet (.eq ⟨[10, 6]⟩) == driverSet (.eq ⟨[10, 6, 0]⟩)) ∧
      (driverSet (.eq ⟨[10, 6]⟩)).evaluate { driverVersion := "10.6.3" } ≠
        (driverSet (.eq ⟨[10, 6, 0]⟩)).evaluate { driverVersion := "10.6.3" } ∧
      (driverRule (.eq ⟨[10, 6]⟩) == driverRule (.eq ⟨[10, 6, 0]⟩)) ∧
      (driverRule (.eq ⟨[10, 6]⟩)).applies { driverVersion := "10.6.3" } ≠
        (driverRule (.eq ⟨[10, 6, 0]⟩)).applies { driverVersion := "10.6.3" } := by
  decide +kernel

end GpuRules
