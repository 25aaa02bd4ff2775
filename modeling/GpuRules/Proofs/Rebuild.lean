import GpuRules.Proofs.Features
import GpuRules.Proofs.Reading.Tree

/-! Building the rules of a loaded set again. A load asks of a list of features only that it names
something, known or not; a build asks that a rule has a feature. So what is loaded can be built just
if every entry for the browser names a feature that is known. -/

namespace GpuRules

open Config
open Json (Members)

def NamesFeature (members : Members) : Prop :=
  ∃ names, blacklist? members = some names ∧ ∃ name ∈ names, (FeatureMask.ofName? name).isSome

theorem rule?_id_features {members : Members} {rule : Rule} (h : rule? members = some rule) :
    rule.id ≠ 0 ∧ (rule.features.isEmpty = false ↔ NamesFeature members) := by
  obtain ⟨id, body, names, exceptions, hread, -, hnames, -, rfl⟩ := rule?_eq_some h
  obtain ⟨json, -, hid⟩ := Option.bind_eq_some_iff.mp hread
  refine ⟨(id?_eq_some_iff.mp hid).2, ?_⟩
  unfold NamesFeature
  rw [← Bool.not_eq_true, FeatureMask.isEmpty_names_iff]
  simp only [hnames, Option.some.injEq, exists_eq_left', not_forall, Option.isSome_iff_ne_none,
    exists_prop]

/-- Rules with distinct ids can only lack features. -/
theorem RuleSet.fault?_eq_find? {index : Nat} {seen : List UInt32} {rules : List Rule}
    (hid : ∀ rule ∈ rules, rule.id ≠ 0) (hnodup : (rules.map (·.id)).Nodup)
    (hnew : ∀ rule ∈ rules, rule.id ∉ seen) :
    fault? index seen rules =
      (rules.find? (·.features.isEmpty)).map fun rule => .emptyBlacklist rule.id := by
  induction rules generalizing index seen with
  | nil => rfl
  | cons rule rest ih =>
    rw [List.forall_mem_cons] at hid hnew
    rw [List.map_cons, List.nodup_cons] at hnodup
    -- The ids that have been seen grow, but no id comes twice.
    have hlater (other : Rule) (hother : other ∈ rest) : other.id ∉ rule.id :: seen := by
      rw [List.mem_cons, not_or]
      constructor
      · intro heq
        exact hnodup.1 (heq ▸ List.mem_map_of_mem hother)
      · exact hnew.2 other hother
    rw [fault?, if_neg hid.1, if_neg hnew.1]
    cases hempty : rule.features.isEmpty with
    | true =>
      rw [if_pos rfl]
      simp [hempty]
    | false =>
      rw [if_neg (by decide), ih hid.2 hnodup.2 hlater]
      simp [hempty]

theorem RuleSet.build_eq {version : SchemaVersion} {rules : List Rule}
    (hid : ∀ rule ∈ rules, rule.id ≠ 0) (hnodup : (rules.map (·.id)).Nodup) :
    build version rules =
      match rules.find? (·.features.isEmpty) with
      | some rule => .error (.emptyBlacklist rule.id)
      | none => .ok (ofRules version rules) := by
  have hfault : fault? 0 [] rules = _ :=
    fault?_eq_find? hid hnodup fun _ _ => List.not_mem_nil
  unfold build
  rw [hfault]
  cases rules.find? (·.features.isEmpty) <;> rfl

section Loaded

variable {options : LoadOptions} {tree : Json} {set : RuleSet} {browser : Version}
  {items : List Json}
  (hload : (RuleSet.ofTree options tree).outcome = .ok set)
  (hbrowser : Version.parse options.browserVersion = .ok browser)
  (hitems : entries? tree = some items)

include hload hbrowser hitems

theorem exists_rules_eq_filter :
    ∃ rules, set = (RuleSet.ofRules set.version rules).restrict options.keeps ∧
      (∀ rule ∈ rules, rule.id ≠ 0) ∧ (rules.map (·.id)).Nodup ∧
      List.Forall₂ (fun members rule => rule.features.isEmpty = false ↔ NamesFeature members)
        (supported browser items) rules := by
  obtain ⟨version, items', browser', rules, -, hitems', hbrowser', hrules, hnodup, rfl⟩ :=
    outcome_ofTree_eq_ok_iff.mp hload
  obtain rfl := Option.some.inj (hitems.symm.trans hitems')
  obtain rfl := Except.ok.inj (hbrowser.symm.trans hbrowser')
  have hread := forall₂_supported hrules
  have hid : ∀ rule ∈ rules, rule.id ≠ 0 :=
    forall_mem_of_forall₂ hread fun members rule hrule => (rule?_id_features hrule).1
  refine ⟨rules, rfl, hid, hnodup, ?_⟩
  exact hread.imp fun members rule hrule => (rule?_id_features hrule).2

/-- A loaded set can be built again just if all its entries name features. -/
theorem build_loaded :
    (∃ rules, set.rules = rules.filter options.keeps ∧
        List.Forall₂ (fun members rule => rule.features.isEmpty = false ↔ NamesFeature members)
          (supported browser items) rules) ∧
      (options.filter = .all →
        ((∀ members ∈ supported browser items, NamesFeature members) →
          RuleSet.build set.version set.rules = .ok set) ∧
        ((¬∀ members ∈ supported browser items, NamesFeature members) →
          ∃ rule ∈ set.rules, rule.features.isEmpty ∧
            RuleSet.build set.version set.rules = .error (.emptyBlacklist rule.id))) := by
  obtain ⟨rules, hset, hid, hnodup, hforall⟩ := exists_rules_eq_filter hload hbrowser hitems
  have hfeatures : (∀ members ∈ supported browser items, NamesFeature members) ↔
      ∀ rule ∈ rules, rule.features.isEmpty = false :=
    forall_mem_iff_of_forall₂ hforall fun _ _ h => h.symm
  refine ⟨⟨rules, congrArg RuleSet.rules hset, hforall⟩, ?_⟩
  intro hall
  have hkeeps : options.keeps = fun _ => true := by
    funext rule
    simp [LoadOptions.keeps, hall]
  have hwhole : set = RuleSet.ofRules set.version rules := by
    rw [hkeeps] at hset
    simpa [RuleSet.restrict, RuleSet.ofRules] using hset
  have hrules : set.rules = rules := congrArg RuleSet.rules hwhole
  rw [hrules, hfeatures, RuleSet.build_eq hid hnodup]
  constructor
  · intro hnonempty
    have hnone : rules.find? (·.features.isEmpty) = none := by
      rw [List.find?_eq_none]
      intro rule hrule
      simp [hnonempty rule hrule]
    rw [hnone, ← hwhole]
  · intro hempty
    cases hfind : rules.find? (·.features.isEmpty) with
    | none =>
      rw [List.find?_eq_none] at hfind
      exact absurd (fun rule hrule => Bool.eq_false_iff.mpr (hfind rule hrule)) hempty
    | some rule =>
      have hfound : rule.features.isEmpty := by simpa using List.find?_some hfind
      exact ⟨rule, List.mem_of_find?_eq_some hfind, hfound, rfl⟩

end Loaded

def entryNaming (names : List String) : Members :=
  [("blacklist", .array (names.map .string)), ("id", .integer 1)]

def namingTree (names : List String) : Json :=
  .object [("entries", .array [.object (entryNaming names)]), ("version", .string "1.0")]

theorem build_loaded_namingTree :
    ∃ set, (RuleSet.ofTree ⟨"0", .all, .linux⟩ (namingTree ["webgl", "teleport"])).outcome = .ok set ∧
      RuleSet.build set.version set.rules = .ok set := by
  have hok : (RuleSet.ofTree ⟨"0", .all, .linux⟩ (namingTree ["webgl", "teleport"])).outcome.isOk := by
    decide +kernel
  obtain ⟨set, hset⟩ := Report.isOk_iff.mp hok
  have hbrowser : (Version.parse "0").toOption.map (·.components) = some [0] := by decide +kernel
  obtain ⟨browser, hbrowser, -⟩ := Option.map_eq_some_iff.mp hbrowser
  rw [Report.toOption_eq_some_iff] at hbrowser
  have hnames : ∀ members ∈ supported browser [.object (entryNaming ["webgl", "teleport"])],
      NamesFeature members := by
    intro members hmem
    have hobject := List.mem_of_mem_filter hmem
    obtain rfl : members = entryNaming ["webgl", "teleport"] := by
      simpa [Json.object?] using hobject
    exact ⟨["webgl", "teleport"], rfl, "webgl", by decide, by decide⟩
  exact ⟨set, hset, ((build_loaded hset hbrowser rfl).2 rfl).1 hnames⟩

/-- A name that nobody knows is enough for a load, but not for a build. -/
theorem namingTree_build_ne :
    ∃ set, (RuleSet.ofTree ⟨"0", .all, .linux⟩ (namingTree ["teleport"])).outcome = .ok set ∧
      (∃ rule ∈ set.rules, rule.features.isEmpty) ∧
      RuleSet.build set.version set.rules ≠ .ok set := by
  have hread : (RuleSet.ofTree ⟨"0", .all, .linux⟩ (namingTree ["teleport"])).outcome.toOption.map
      (fun set => (set.rules.any (·.features.isEmpty),
        (RuleSet.build set.version set.rules).toOption.isNone)) = some (true, true) := by
    decide +kernel
  obtain ⟨set, hset, hpair⟩ := Option.map_eq_some_iff.mp hread
  rw [Report.toOption_eq_some_iff] at hset
  obtain ⟨hempty, hbuild⟩ := Prod.mk.inj hpair
  refine ⟨set, hset, ?_, ?_⟩
  · simpa using hempty
  · intro hok
    rw [hok] at hbuild
    cases hbuild

end GpuRules
