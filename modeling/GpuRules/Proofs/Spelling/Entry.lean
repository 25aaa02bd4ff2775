import GpuRules.Config.Load
import GpuRules.Proofs.Reports.Subject
import GpuRules.Proofs.Spelling.Object

/-! Whole entries, said in a configuration and made by hand. -/

namespace GpuRules.Spelling

open Config
open Json (Members)

/-- An entry: its features by their names, its clauses, and the clauses of each exception. -/
structure Draft where
  id : UInt32
  disabled : Bool
  names : List String
  clauses : List Clause
  exceptions : List (List Clause)
  nonempty : names ≠ []
  recognised : ∀ name ∈ names, (FeatureMask.ofName? name).isSome

def exceptionOf (clauses : List Clause) : Rule :=
  Rule.ofSettings 0 (clauses.map Clause.setting)

namespace Draft

variable (draft : Draft)

def own : Members :=
  [("blacklist", .array (draft.names.map .string)), ("disabled", .bool draft.disabled),
    ("exceptions", .array (draft.exceptions.map fun clauses => .object (spell [] clauses))),
    ("id", .integer draft.id.toNat)]

def members : Members := spell draft.own draft.clauses

def features : FeatureMask := .union (draft.names.filterMap FeatureMask.ofName?)

def settings : List Setting :=
  [.disabled draft.disabled, .features draft.features] ++ draft.clauses.map Clause.setting ++
    draft.exceptions.map fun clauses => .exception (exceptionOf clauses)

def rule : Rule := Rule.ofSettings draft.id draft.settings

def bare : Rule :=
  (draft.clauses.map Clause.setting).foldl Rule.set
    { id := draft.id, disabled := draft.disabled, features := draft.features }

end Draft

theorem exception?_eq {members : Members} {rule : Rule} (hreads : Reads members rule)
    (hextends : Extends [] {} members rule) : exception? members = some rule := by
  have hallowed : hasUnknown (sharedKeys members) members = false := by
    rw [hasUnknown_sharedKeys_iff]
    intro key json hget
    exact (hextends.known key json hget).resolve_right fun hnone => nomatch hnone
  have hbody := hreads.body?
  obtain ⟨description, crBugs, webkitBugs, conditions, rfl⟩ := hextends.frame
  unfold exception?
  rw [hbody, hallowed]
  rfl

theorem free_nil : Free [] := fun _ _ _ => rfl

theorem exception?_spell (clauses : List Clause) :
    exception? (spell [] clauses) = some (exceptionOf clauses) :=
  exception?_eq ((reads_of_free free_nil 0 false ∅).run clauses)
    ((extends_refl [] {}).run free_nil clauses)

theorem free_own (draft : Draft) : Free draft.own := by
  intro key json hallowed
  unfold Draft.own
  cases hallowed with
  | description => rfl
  | bugs list => cases list <;> rfl
  | criterion slot => cases slot <;> rfl

theorem foldl_exception (rule : Rule) (exceptions : List Rule) :
    (exceptions.map Setting.exception).foldl Rule.set rule =
      { rule with exceptions := rule.exceptions ++ exceptions } := by
  induction exceptions generalizing rule with
  | nil =>
    rw [List.append_nil]
    cases rule
    rfl
  | cons exception rest ih =>
    rw [List.map_cons, List.foldl_cons, ih]
    simp only [Rule.set, List.append_assoc, List.cons_append, List.nil_append]

theorem reads_members (draft : Draft) : Reads draft.members draft.bare :=
  (reads_of_free (free_own draft) draft.id draft.disabled draft.features).run draft.clauses

theorem extends_members (draft : Draft) :
    Extends draft.own { id := draft.id, disabled := draft.disabled, features := draft.features }
      draft.members draft.bare :=
  (extends_refl draft.own _).run (free_own draft) draft.clauses

theorem rule_eq (draft : Draft) :
    draft.rule = { draft.bare with exceptions := draft.exceptions.map exceptionOf } := by
  have hnone : draft.bare.exceptions = [] := by
    obtain ⟨description, crBugs, webkitBugs, conditions, hframe⟩ := (extends_members draft).frame
    rw [hframe]
  have hexceptions : (draft.exceptions.map fun clauses => Setting.exception (exceptionOf clauses)) =
      (draft.exceptions.map exceptionOf).map Setting.exception := by
    rw [List.map_map]
    rfl
  unfold Draft.rule Rule.ofSettings Draft.settings
  rw [List.foldl_append, List.foldl_append, hexceptions]
  change ((draft.exceptions.map exceptionOf).map Setting.exception).foldl Rule.set draft.bare = _
  rw [foldl_exception, hnone, List.nil_append]

theorem unknownFields_exceptionOf (clauses : List Clause) :
    (exceptionOf clauses).unknownFields = false := by
  have hextends := (extends_refl [] {}).run free_nil clauses
  obtain ⟨description, crBugs, webkitBugs, conditions, hframe⟩ := hextends.frame
  change ((clauses.map Clause.setting).foldl Rule.set {}).unknownFields = false
  rw [hframe]

theorem exceptions?_members (draft : Draft) :
    exceptions? draft.members = some (draft.exceptions.map exceptionOf) := by
  have hget := (extends_members draft).kept "exceptions" _ rfl
  have hread := mapM_map_eq_pure (fun clauses => Json.object (spell [] clauses))
    (fun item => item.object? >>= exception?) exception?_spell draft.exceptions
  unfold exceptions?
  rw [hget]
  exact hread

theorem blacklist?_members (draft : Draft) : blacklist? draft.members = some draft.names := by
  have hget := (extends_members draft).kept "blacklist" _ rfl
  have hnames := mapM_map_eq_pure Json.string Json.string? (fun _ => rfl) draft.names
  rw [List.map_id'] at hnames
  have hlist : (draft.names.map Json.string).isEmpty = false := by
    simp [draft.nonempty]
  unfold blacklist?
  rw [hget]
  change (if (draft.names.map Json.string).isEmpty then none
    else (draft.names.map Json.string).mapM Json.string?) = some draft.names
  rw [hlist, hnames]
  rfl

theorem hasUnknown_members (draft : Draft) :
    hasUnknown (entryKeys draft.members) draft.members = false := by
  have hdisabled := (extends_members draft).kept "disabled" _ rfl
  have hexceptions := (extends_members draft).kept "exceptions" _ rfl
  rw [hasUnknown_eq_false_iff]
  intro key json hget
  unfold entryKeys
  rcases (extends_members draft).known key json hget with hallowed | hown
  · have hshared : key ∈ sharedKeys draft.members := mem_sharedKeys_iff.mpr ⟨json, hget, hallowed⟩
    simp [hshared]
  · have hmem : (key, json) ∈ draft.own := by
      obtain ⟨before, after, heq, -⟩ := List.lookup_eq_some_iff.mp hown
      simp [heq]
    rw [hdisabled, hexceptions]
    simp only [Draft.own, List.mem_cons, Prod.mk.injEq, List.not_mem_nil, or_false] at hmem
    rcases hmem with ⟨rfl, -⟩ | ⟨rfl, -⟩ | ⟨rfl, -⟩ | ⟨rfl, -⟩ <;>
      simp [knownIf, Json.bool?, Json.array?]

theorem rule?_members (draft : Draft) (h : draft.id ≠ 0) :
    rule? draft.members = some draft.rule := by
  have hget := (extends_members draft).kept "id" _ rfl
  have hid : id? (.integer draft.id.toNat) = some draft.id := id?_eq_some_iff.mpr ⟨rfl, h⟩
  have hdisabled := (extends_members draft).kept "disabled" _ rfl
  have hrecognised : (draft.names.any fun name => (FeatureMask.ofName? name).isNone) = false := by
    rw [List.any_eq_false]
    intro name hname
    have hsome := draft.recognised name hname
    rw [Option.isSome_iff_ne_none] at hsome
    simpa using hsome
  have hkept : (draft.exceptions.map exceptionOf).filter (fun rule => !rule.unknownFields) =
      draft.exceptions.map exceptionOf := by
    rw [List.filter_eq_self]
    intro rule hrule
    obtain ⟨clauses, -, rfl⟩ := List.mem_map.mp hrule
    rw [unknownFields_exceptionOf]
    rfl
  have hdropped : (draft.exceptions.map exceptionOf).any (·.unknownFields) = false := by
    rw [List.any_map, List.any_eq_false]
    intro clauses _
    simp [unknownFields_exceptionOf]
  obtain ⟨description, crBugs, webkitBugs, conditions, hframe⟩ := (extends_members draft).frame
  unfold rule?
  rw [hget, (reads_members draft).body?, blacklist?_members, exceptions?_members, hdisabled,
    hasUnknown_members, rule_eq, hframe]
  simp only [Option.bind_eq_bind, Option.bind_some, hid, hrecognised, hkept, hdropped]
  rfl

end GpuRules.Spelling
