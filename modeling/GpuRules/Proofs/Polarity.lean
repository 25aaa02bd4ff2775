import GpuRules.Proofs.Exceptions
import GpuRules.Proofs.Reading.Shape
import GpuRules.Rule.Setting
import Mathlib.Algebra.Ring.Parity

/-! Asking for more at one place in a rule. A rule that asks for more applies to less, but as an
exception it then spares less, so the rule that it stands in applies to more. From one depth of
exceptions to the next the effect turns round. -/

namespace GpuRules

def Setting.slot? : Setting → Option Slot
  | .os _ => some .os
  | .vendorId _ => some .vendorId
  | .deviceIds _ => some .deviceId
  | .multiGpuStyle _ => some .multiGpuStyle
  | .driverVendor _ => some .driverVendor
  | .driverVersion _ => some .driverVersion
  | .driverDate _ => some .driverDate
  | .glVendor _ => some .glVendor
  | .glRenderer _ => some .glRenderer
  | .perfGraphics _ => some .perfGraphics
  | .perfGaming _ => some .perfGaming
  | .perfOverall _ => some .perfOverall
  | .disabled _ | .description _ | .crBugs _ | .webkitBugs _ | .features _ | .exception _ => none

namespace Rule

theorem holds_set_of_ne {setting : Setting} {slot : Slot} (h : setting.slot? ≠ some slot)
    (rule : Rule) (os : OsType) (hardware : Hardware) :
    (rule.set setting).conditions.holds os hardware slot =
      rule.conditions.holds os hardware slot := by
  cases setting <;> cases slot <;> first | rfl | exact absurd rfl h

@[simp] theorem malformed_set (rule : Rule) (setting : Setting) :
    (rule.set setting).malformed = rule.malformed := by
  cases setting <;> rfl

theorem exceptions_set {setting : Setting} {slot : Slot} (h : setting.slot? = some slot)
    (rule : Rule) : (rule.set setting).exceptions = rule.exceptions := by
  cases setting <;> first | rfl | cases h

/-- Ways for a rule to ask for more: in a slot where it asked for nothing, with a criterion that
could not be built, or with one more exception. -/
inductive Stricter : Rule → Rule → Prop
  | criterion {rule : Rule} {setting : Setting} {slot : Slot} : setting.slot? = some slot →
      rule.conditions.IsUnset slot → Stricter rule (rule.set setting)
  | malformed {rule : Rule} {before after : List Slot} (slot : Slot) :
      rule.malformed = before ++ after →
      Stricter rule { rule with malformed := before ++ slot :: after }
  | exception {rule : Rule} {before after : List Rule} (exception : Rule) :
      rule.exceptions = before ++ after →
      Stricter rule { rule with exceptions := before ++ exception :: after }

/-- One rule is another but for a change in one place, so many exceptions deep. -/
inductive ChangedAt (change : Rule → Rule → Prop) : Nat → Rule → Rule → Prop
  | here {rule rule' : Rule} : change rule rule' → ChangedAt change 0 rule rule'
  | inside {depth : Nat} {rule exception exception' : Rule} {before after : List Rule} :
      rule.exceptions = before ++ exception :: after →
      ChangedAt change depth exception exception' →
      ChangedAt change (depth + 1) rule
        { rule with exceptions := before ++ exception' :: after }

variable {os : OsType} {hardware : Hardware}

theorem admits_of_admits_set {setting : Setting} {slot : Slot} {rule : Rule}
    (hslot : setting.slot? = some slot) (hunset : rule.conditions.IsUnset slot)
    (hadmits : (rule.set setting).conditions.admits os hardware) :
    rule.conditions.admits os hardware := by
  rw [Conditions.admits_iff] at hadmits ⊢
  intro other
  by_cases hother : other = slot
  · rw [hother]
    exact Conditions.holds_of_isUnset hunset os hardware
  · have hne : setting.slot? ≠ some other := by
      rw [hslot]
      exact fun heq => hother (Option.some.inj heq).symm
    rw [← holds_set_of_ne hne]
    exact hadmits other

theorem appliesOn_of_stricter {rule rule' : Rule} (h : Stricter rule rule')
    (happlies : rule'.appliesOn os hardware) : rule.appliesOn os hardware := by
  rw [appliesOn_iff] at happlies ⊢
  obtain ⟨hmalformed, hadmits, hspared⟩ := happlies
  cases h with
  | criterion hslot hunset =>
    rw [malformed_set] at hmalformed
    rw [exceptions_set hslot] at hspared
    exact ⟨hmalformed, admits_of_admits_set hslot hunset hadmits, hspared⟩
  | malformed slot hlist => simp at hmalformed
  | exception exception hlist =>
    refine ⟨hmalformed, hadmits, ?_⟩
    intro other hother
    rw [hlist, List.mem_append] at hother
    apply hspared
    rw [List.mem_append, List.mem_cons]
    exact hother.imp_right .inr

theorem appliesOn_of_exception {rule rule' exception exception' : Rule} {before after : List Rule}
    (hbody : rule.toRuleBody = rule'.toRuleBody)
    (hlist : rule.exceptions = before ++ exception :: after)
    (hlist' : rule'.exceptions = before ++ exception' :: after)
    (h : exception'.appliesOn os hardware → exception.appliesOn os hardware)
    (happlies : rule.appliesOn os hardware) : rule'.appliesOn os hardware := by
  rw [appliesOn_iff, hbody, hlist] at happlies
  rw [appliesOn_iff, hlist']
  obtain ⟨hmalformed, hadmits, hspared⟩ := happlies
  refine ⟨hmalformed, hadmits, ?_⟩
  rw [List.forall_mem_append, List.forall_mem_cons] at hspared ⊢
  exact ⟨hspared.1, fun h' => hspared.2.1 (h h'), hspared.2.2⟩

theorem appliesOn_of_changedAt {change : Rule → Rule → Prop}
    (hchange : ∀ node node', change node node' →
      node'.appliesOn os hardware → node.appliesOn os hardware)
    {depth : Nat} {rule rule' : Rule} (h : ChangedAt change depth rule rule') :
    (Even depth → rule'.appliesOn os hardware → rule.appliesOn os hardware) ∧
      (Odd depth → rule.appliesOn os hardware → rule'.appliesOn os hardware) := by
  induction h with
  | here h => exact ⟨fun _ => hchange _ _ h, fun hodd => absurd hodd (by decide)⟩
  | inside hlist _ ih =>
    -- Each exception on the way exchanges the two directions, so they are proved together.
    rw [Nat.even_add_one, Nat.odd_add_one, Nat.not_even_iff_odd, Nat.not_odd_iff_even]
    constructor
    · intro hodd
      exact appliesOn_of_exception rfl rfl hlist (ih.2 hodd)
    · intro heven
      exact appliesOn_of_exception rfl hlist rfl (ih.1 heven)

end Rule

/-- Asking for more at an even depth makes a rule apply to less, and at an odd depth to more. -/
theorem applies_of_stricterAt {depth : Nat} {rule rule' : Rule}
    (h : Rule.ChangedAt Rule.Stricter depth rule rule') :
    (Even depth → ∀ hardware, rule'.applies hardware → rule.applies hardware) ∧
      (Odd depth → ∀ hardware, rule.applies hardware → rule'.applies hardware) := by
  constructor
  · intro heven hardware
    exact (Rule.appliesOn_of_changedAt (fun _ _ => Rule.appliesOn_of_stricter) h).1 heven
  · intro hodd hardware
    exact (Rule.appliesOn_of_changedAt (fun _ _ => Rule.appliesOn_of_stricter) h).2 hodd

def nestedRule (rule exception inner : Conditions) : Rule where
  id := 1
  conditions := rule
  features := .ofFeature .webgl
  exceptions := [{ conditions := exception, exceptions := [{ conditions := inner }] }]

theorem applies_of_stricterAt_nestedRule :
    let plain := nestedRule {} { vendorId := 1 } { deviceIds := [7] }
    let deep := nestedRule {} { vendorId := 1 } { deviceIds := [7], multiGpuStyle := some .optimus }
    let shallow :=
      nestedRule {} { vendorId := 1, multiGpuStyle := some .optimus } { deviceIds := [7] }
    (Rule.ChangedAt Rule.Stricter 2 plain deep ∧ Even 2 ∧
        (∀ hardware, deep.applies hardware → plain.applies hardware) ∧
        plain.applies { vendorId := 1, deviceId := 7 } ∧
        deep.applies { vendorId := 1, deviceId := 7 } = false) ∧
      Rule.ChangedAt Rule.Stricter 1 plain shallow ∧ Odd 1 ∧
        (∀ hardware, plain.applies hardware → shallow.applies hardware) ∧
        shallow.applies { vendorId := 1 } ∧ plain.applies { vendorId := 1 } = false := by
  intro plain deep shallow
  have hstricter (rule : Rule) (hunset : rule.conditions.IsUnset .multiGpuStyle) :
      Rule.Stricter rule (rule.set (.multiGpuStyle (some .optimus))) := .criterion rfl hunset
  have honly {depth : Nat} {body : RuleBody} {exception exception' : Rule}
      (h : Rule.ChangedAt Rule.Stricter depth exception exception') :
      Rule.ChangedAt Rule.Stricter (depth + 1) ⟨body, [exception]⟩ ⟨body, [exception']⟩ :=
    @Rule.ChangedAt.inside _ depth ⟨body, [exception]⟩ exception exception' [] [] rfl h
  have hdeep : Rule.ChangedAt Rule.Stricter 2 plain deep :=
    honly (honly (.here (hstricter { conditions := { deviceIds := [7] } } rfl)))
  have hshallow : Rule.ChangedAt Rule.Stricter 1 plain shallow :=
    honly (.here (hstricter _ rfl))
  exact ⟨⟨hdeep, by decide, (applies_of_stricterAt hdeep).1 (by decide), by decide, by decide⟩,
    hshallow, by decide, (applies_of_stricterAt hshallow).2 (by decide), by decide, by decide⟩

end GpuRules
