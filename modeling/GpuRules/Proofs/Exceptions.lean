import GpuRules.Rule

/-! Rules as trees of exceptions. What holds of a rule as soon as it holds of its exceptions holds
of every rule, and whether a rule applies is settled by the conditions met in its tree. -/

namespace GpuRules.Rule

inductive Within : Rule → Rule → Prop
  | self (rule : Rule) : Within rule rule
  | exception {node exception rule : Rule} : exception ∈ rule.exceptions → Within node exception →
      Within node rule

@[elab_as_elim]
theorem inductionOn {motive : Rule → Prop} (rule : Rule)
    (step : ∀ rule : Rule, (∀ exception ∈ rule.exceptions, motive exception) → motive rule) :
    motive rule := by
  obtain ⟨body, exceptions⟩ := rule
  apply step
  intro exception hmem
  have hsmaller := List.sizeOf_lt_of_mem hmem
  exact inductionOn exception step
termination_by sizeOf rule

variable {os os' : OsType} {hardware hardware' : Hardware}

theorem appliesOn_iff (rule : Rule) : rule.appliesOn os hardware ↔
    rule.malformed = [] ∧ rule.conditions.admits os hardware ∧
      ∀ exception ∈ rule.exceptions, ¬exception.appliesOn os hardware := by
  rw [appliesOn_eq]
  simp [and_assoc]

theorem appliesOn_eq_false_of_holds_eq_false {rule : Rule} {slot : Slot}
    (h : rule.conditions.holds os hardware slot = false) : rule.appliesOn os hardware = false := by
  rw [← Bool.not_eq_true, appliesOn_iff, Conditions.admits_iff]
  rintro ⟨-, hholds, -⟩
  rw [hholds slot] at h
  cases h

/-- Two runs on one rule come out alike if they do on the conditions of every rule in its tree. -/
theorem appliesOn_congr (rule : Rule)
    (h : ∀ node, Within node rule →
      node.conditions.admits os hardware = node.conditions.admits os' hardware') :
    rule.appliesOn os hardware = rule.appliesOn os' hardware' := by
  induction rule using inductionOn with
  | step rule ih =>
    have hexceptions : rule.exceptions.any (appliesOn os hardware) =
        rule.exceptions.any (appliesOn os' hardware') := by
      rw [Bool.eq_iff_iff, List.any_eq_true, List.any_eq_true]
      apply exists_congr
      intro exception
      apply and_congr_right
      intro hmem
      rw [ih exception hmem fun node hnode => h node (.exception hmem hnode)]
    rw [appliesOn_eq, appliesOn_eq, h rule (.self rule), hexceptions]

end GpuRules.Rule
