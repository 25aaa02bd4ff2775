import GpuRules.Conditions
import GpuRules.Feature

/-!
Rules. A rule applies to the hardware that meets all its conditions, unless one of its exceptions
applies too. An exception is itself a rule, so it may have exceptions in turn.
-/

namespace GpuRules

structure RuleBody where
  /-- Exceptions have none, which is zero. -/
  id : UInt32 := 0
  disabled : Bool := false
  description : String := "The GPU is unavailable for an unexplained reason."
  crBugs : List Int64 := []
  webkitBugs : List Int64 := []
  conditions : Conditions := {}
  /-- Slots whose criterion was given but could not be built. A rule with any never applies. -/
  malformed : List Slot := []
  features : FeatureMask := ∅
  unknownFields : Bool := false
  unknownFeatures : Bool := false
  deriving BEq, Repr, Inhabited

structure Rule extends RuleBody where
  exceptions : List Rule := []
  deriving Inhabited

namespace Rule

mutual

def appliesOn (os : OsType) (hardware : Hardware) : Rule → Bool
  | ⟨body, exceptions⟩ =>
    body.malformed.isEmpty && body.conditions.admits os hardware &&
      !anyAppliesOn os hardware exceptions

def anyAppliesOn (os : OsType) (hardware : Hardware) : List Rule → Bool
  | [] => false
  | rule :: rules => rule.appliesOn os hardware || anyAppliesOn os hardware rules

end

theorem anyAppliesOn_eq_any (os : OsType) (hardware : Hardware) (rules : List Rule) :
    anyAppliesOn os hardware rules = rules.any (appliesOn os hardware) := by
  induction rules with
  | nil => rfl
  | cons rule rules ih => simp [anyAppliesOn, ih]

theorem appliesOn_eq (os : OsType) (hardware : Hardware) (rule : Rule) :
    rule.appliesOn os hardware =
      (rule.malformed.isEmpty && rule.conditions.admits os hardware &&
        !rule.exceptions.any (appliesOn os hardware)) := by
  cases rule
  rw [appliesOn, anyAppliesOn_eq_any]

def applies (rule : Rule) (hardware : Hardware) : Bool :=
  rule.appliesOn hardware.os.resolve hardware

/-- The operating system that the rule is meant for, which is any if it does not say. Nothing if it
does say but cannot be understood. -/
def os? (rule : Rule) : Option OsType :=
  match rule.conditions.os with
  | some criterion => some criterion.os
  | none => if Slot.os ∈ rule.malformed then none else some .any

mutual

/-- Equality of all parts. Versions in them are equal up to trailing zeros, scores as numbers. -/
def beq : Rule → Rule → Bool
  | ⟨body, exceptions⟩, ⟨body', exceptions'⟩ => body == body' && beqAll exceptions exceptions'

def beqAll : List Rule → List Rule → Bool
  | [], [] => true
  | rule :: rules, rule' :: rules' => rule.beq rule' && beqAll rules rules'
  | _, _ => false

end

instance : BEq Rule := ⟨beq⟩

theorem beqAll_eq_beq (rules rules' : List Rule) : beqAll rules rules' = (rules == rules') := by
  induction rules generalizing rules' with
  | nil => cases rules' <;> rfl
  | cons rule rules ih =>
    cases rules' with
    | nil => rfl
    | cons rule' rules' =>
      simp only [beqAll, ih]
      rfl

end Rule

end GpuRules
