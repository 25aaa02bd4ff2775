import GpuRules.Proofs.Spelling.Clause

/-! Objects that say clauses, read. One more clause in the object is one more setting of the rule
that is read from it, and so are any number of clauses. -/

namespace GpuRules.Spelling

open Config
open Json (Members)

def bugsOf (rule : Rule) : BugList → List Int64
  | .cr => rule.crBugs
  | .webkit => rule.webkitBugs

/-- What clauses are about is read from the members as it is set in the rule. -/
structure Reads (members : Members) (rule : Rule) : Prop where
  description : descriptionOf members = rule.description
  bugs : ∀ list, bugs? members list = some (bugsOf rule list)
  conditions : (Fields.read members).conditions = rule.conditions
  errors : ∀ slot, (Fields.read members).error? slot = none

/-- The members are the given ones and clauses, and the rule is the given one but for clauses. -/
structure Extends (own : Members) (base : Rule) (members : Members) (rule : Rule) : Prop where
  kept : ∀ key json, own.get? key = some json → members.get? key = some json
  known : ∀ key json, members.get? key = some json → Allowed key json ∨ own.get? key = some json
  frame : ∃ description crBugs webkitBugs conditions,
    rule = { base with description, crBugs, webkitBugs, conditions }

def Free (own : Members) : Prop :=
  ∀ key json, Allowed key json → own.get? key = none

variable {own members : Members} {base rule : Rule}

theorem bug?_toInt (number : Int64) : bug? (.integer number.toInt) = some number := by
  have hrange : Int64.minValue.toInt ≤ number.toInt ∧ number.toInt ≤ Int64.maxValue.toInt :=
    ⟨number.minValue_le_toInt, number.toInt_le⟩
  simp only [bug?, if_pos hrange, Int64.ofInt_toInt]

theorem bugs?_insert_self (members : Members) (list : BugList) (numbers : List Int64) :
    bugs? (members.insert list.key (Clause.bugs list numbers).json) list = some numbers := by
  have hread := mapM_map_eq_pure (fun number : Int64 => Json.integer number.toInt) bug? bug?_toInt
    numbers
  unfold bugs?
  rw [Members.get?_insert_self]
  rwa [List.map_id'] at hread

theorem bugsOf_set_of_ne {list other : BugList} (numbers : List Int64) (h : other ≠ list) :
    bugsOf (rule.set (Clause.bugs list numbers).setting) other = bugsOf rule other := by
  cases list with
  | cr =>
    cases other with
    | cr => exact absurd rfl h
    | webkit => rfl
  | webkit =>
    cases other with
    | cr => rfl
    | webkit => exact absurd rfl h

theorem Extends.step (h : Extends own base members rule) (hfree : Free own) (clause : Clause) :
    Extends own base (members.insert clause.key clause.json) (rule.set clause.setting) where
  kept := by
    intro key json hget
    -- A clause has a key that the other members leave free.
    have hne : key ≠ clause.key := by
      rintro rfl
      rw [hfree _ _ (allowed_clause clause)] at hget
      cases hget
    rw [Members.get?_insert_of_ne members _ hne]
    exact h.kept key json hget
  known := by
    intro key json hget
    by_cases heq : key = clause.key
    · subst heq
      rw [Members.get?_insert_self, Option.some.injEq] at hget
      exact .inl (hget ▸ allowed_clause clause)
    · rw [Members.get?_insert_of_ne members _ heq] at hget
      exact h.known key json hget
  frame := by
    obtain ⟨description, crBugs, webkitBugs, conditions, rfl⟩ := h.frame
    cases clause with
    | description text => exact ⟨_, _, _, _, rfl⟩
    | bugs list numbers => cases list <;> exact ⟨_, _, _, _, rfl⟩
    | criterion slot content => cases slot <;> exact ⟨_, _, _, _, rfl⟩

theorem Reads.describe (h : Reads members rule) (text : String) :
    Reads (members.insert "description" (.string text)) { rule with description := text } where
  description := descriptionOf_insert_self members text
  bugs := by
    intro list
    rw [bugs?_insert_of_ne members _ (list_key_ne list), h.bugs list]
    cases list <;> rfl
  conditions := by
    rw [Fields.read_insert_of_ne members _ slot_key_ne]
    exact h.conditions
  errors := by
    rw [Fields.read_insert_of_ne members _ slot_key_ne]
    exact h.errors

theorem Reads.list (h : Reads members rule) (list : BugList) (numbers : List Int64) :
    Reads (members.insert list.key (Clause.bugs list numbers).json)
      (rule.set (Clause.bugs list numbers).setting) where
  description := by
    rw [descriptionOf_insert_of_ne members _ (list_key_ne list).symm, h.description]
    cases list <;> rfl
  bugs := by
    intro other
    by_cases heq : other = list
    · subst heq
      rw [bugs?_insert_self]
      cases other <;> rfl
    · have hkey : other.key ≠ list.key := fun hkeys => heq (list_key_injective hkeys)
      rw [bugs?_insert_of_ne members _ hkey, h.bugs other, bugsOf_set_of_ne numbers heq]
  conditions := by
    rw [Fields.read_insert_of_ne members _ (slot_key_ne_list_key · list), h.conditions]
    cases list <;> rfl
  errors := by
    rw [Fields.read_insert_of_ne members _ (slot_key_ne_list_key · list)]
    exact h.errors

theorem Reads.criterion (h : Reads members rule) {slot : Slot} (content : Content slot) :
    Reads (members.insert slot.key content.json) (rule.set content.setting) where
  description := by
    rw [descriptionOf_insert_of_ne members _ (slot_key_ne slot).symm, h.description]
    cases slot <;> rfl
  bugs := by
    intro list
    rw [bugs?_insert_of_ne members _ (slot_key_ne_list_key slot list).symm, h.bugs list]
    cases slot <;> cases list <;> rfl
  conditions := by
    rw [Fields.read_insert]
    exact (put_content content h.conditions).1
  errors := by
    intro other
    rw [Fields.read_insert]
    by_cases heq : other = slot
    · subst heq
      exact (put_content content h.conditions).2
    · rw [Fields.error?_put _ _ heq]
      exact h.errors other

theorem Reads.step (h : Reads members rule) (clause : Clause) :
    Reads (members.insert clause.key clause.json) (rule.set clause.setting) := by
  cases clause with
  | description text => exact h.describe text
  | bugs list numbers => exact h.list list numbers
  | criterion slot content => exact h.criterion content

theorem Reads.run (h : Reads members rule) (clauses : List Clause) :
    Reads (spell members clauses) ((clauses.map Clause.setting).foldl Rule.set rule) := by
  induction clauses generalizing members rule with
  | nil => exact h
  | cons clause rest ih => exact ih (h.step clause)

theorem Extends.run (h : Extends own base members rule) (hfree : Free own) (clauses : List Clause) :
    Extends own base (spell members clauses)
      ((clauses.map Clause.setting).foldl Rule.set rule) := by
  induction clauses generalizing members rule with
  | nil => exact h
  | cons clause rest ih => exact ih (h.step hfree clause)

theorem extends_refl (own : Members) (base : Rule) : Extends own base own base where
  kept := fun _ _ hget => hget
  known := fun _ _ hget => .inr hget
  frame := by
    obtain ⟨body, exceptions⟩ := base
    exact ⟨body.description, body.crBugs, body.webkitBugs, body.conditions, rfl⟩

theorem Free.get?_slot (h : Free own) (slot : Slot) : own.get? slot.key = none := by
  have hkind : ∃ json, HasKind (slotKind slot) json := by
    cases slotKind slot with
    | string => exact ⟨.string "", trivial⟩
    | list => exact ⟨.array [], trivial⟩
    | object => exact ⟨.object [], trivial⟩
  obtain ⟨json, hjson⟩ := hkind
  exact h _ json (.criterion slot hjson)

theorem reads_of_free (h : Free own) (id : UInt32) (disabled : Bool) (features : FeatureMask) :
    Reads own { id, disabled, features } where
  description := by
    unfold descriptionOf
    rw [h _ (.string "") (.description trivial)]
    rfl
  bugs := by
    intro list
    unfold bugs?
    rw [h _ (.array []) (.bugs list trivial)]
    cases list <;> rfl
  conditions := by
    unfold Fields.read
    simp only [h.get?_slot]
    rfl
  errors := by
    intro slot
    unfold Fields.read
    simp only [h.get?_slot]
    cases slot <;> rfl

theorem Reads.body? (h : Reads members rule) :
    body? members = some {
      description := rule.description
      crBugs := rule.crBugs
      webkitBugs := rule.webkitBugs
      conditions := rule.conditions } := by
  have herrors : (Fields.read members).errors = [] := by
    unfold Fields.errors
    rw [List.filterMap_eq_nil_iff]
    intro slot _
    rw [h.errors slot]
    rfl
  have hbody : bodyOf members rule.crBugs rule.webkitBugs = {
      description := descriptionOf members
      crBugs := rule.crBugs
      webkitBugs := rule.webkitBugs
      conditions := (Fields.read members).conditions
      malformed := (Fields.read members).errors.map Prod.fst } := rfl
  rw [herrors, h.conditions, h.description] at hbody
  unfold Config.body?
  rw [h.bugs .cr, h.bugs .webkit]
  exact congrArg some hbody

end GpuRules.Spelling
