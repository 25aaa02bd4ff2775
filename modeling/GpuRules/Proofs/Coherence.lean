import GpuRules.Proofs.Exceptions
import GpuRules.Proofs.LargestId
import GpuRules.Proofs.Reading.Shape
import GpuRules.Proofs.Rebuild
import GpuRules.Rule.Setting

/-! What can be relied on in a rule set, whichever way it was made. Its ids are not zero, distinct
and not above the largest id, which is that of a rule, though one that may have been left out for
another platform. If it was loaded, its rules stand in the order of their entries and have their
shape. -/

namespace GpuRules

open Config
open Json (Members)

namespace RuleSet

structure Coherent (set : RuleSet) (loaded : List Rule) : Prop where
  nonzero : ∀ rule ∈ set.rules, rule.id ≠ 0
  distinct : (set.rules.map (·.id)).Nodup
  bounded : ∀ rule ∈ set.rules, rule.id ≤ set.maxId
  attained : set.maxId = 0 ∨ ∃ rule ∈ loaded, rule.id = set.maxId
  flagged : ∀ rule ∈ set.rules, rule.isFlagged → set.unknown
  /-- The type of masks makes sure of it. -/
  masks : ∀ rule ∈ set.rules, ∀ node : Rule, node.Within rule →
    FeatureMask.all.contains node.features

/-- The id, the mark and the order are taken from all rules, so it is harmless to leave some out. -/
theorem coherent_restrict (version : SchemaVersion) {rules : List Rule}
    (hid : ∀ rule ∈ rules, rule.id ≠ 0) (hnodup : (rules.map (·.id)).Nodup) (keeps : Rule → Bool) :
    ((ofRules version rules).restrict keeps).Coherent rules := by
  have hmem {rule : Rule} (h : rule ∈ rules.filter keeps) : rule ∈ rules :=
    (List.mem_filter.mp h).1
  constructor
  · intro rule hrule
    exact hid rule (hmem hrule)
  · exact hnodup.sublist (List.filter_sublist.map _)
  · intro rule hrule
    exact le_maxId version (hmem hrule)
  · exact maxId_eq_zero_or_exists version rules
  · intro rule hrule hflagged
    exact List.any_eq_true.mpr ⟨rule, hmem hrule, hflagged⟩
  · intro rule _ node _
    exact FeatureMask.all_contains node.features

theorem faultless_of_fault?_eq_none {index : Nat} {seen : List UInt32} {rules : List Rule}
    (h : fault? index seen rules = none) :
    (∀ rule ∈ rules, rule.id ≠ 0 ∧ rule.id ∉ seen ∧ rule.features.isEmpty = false) ∧
      (rules.map (·.id)).Nodup := by
  induction rules generalizing index seen with
  | nil => simp
  | cons rule rest ih =>
    unfold fault? at h
    split at h
    · cases h
    next hid =>
    split at h
    · cases h
    next hnew =>
    split at h
    · cases h
    next hfeatures =>
      obtain ⟨hrest, hnodup⟩ := ih h
      rw [List.forall_mem_cons, List.map_cons, List.nodup_cons]
      refine ⟨⟨⟨hid, hnew, Bool.eq_false_iff.mpr hfeatures⟩, ?_⟩, ?_, hnodup⟩
      · intro other hmem
        obtain ⟨hother, hunseen, hany⟩ := hrest other hmem
        exact ⟨hother, fun hseen => hunseen (List.mem_cons_of_mem _ hseen), hany⟩
      · intro hmem
        obtain ⟨other, hother, hsame⟩ := List.mem_map.mp hmem
        exact (hrest other hother).2.1 (hsame ▸ List.mem_cons_self)

theorem of_build_eq_ok {version : SchemaVersion} {rules : List Rule} {set : RuleSet}
    (h : build version rules = .ok set) : fault? 0 [] rules = none ∧ set = ofRules version rules := by
  unfold build at h
  split at h
  · cases h
  next hfault => exact ⟨hfault, (Except.ok.inj h).symm⟩

theorem coherent_of_build {version : SchemaVersion} {rules : List Rule} {set : RuleSet}
    (h : build version rules = .ok set) : set.rules = rules ∧ set.Coherent rules := by
  obtain ⟨hfault, rfl⟩ := of_build_eq_ok h
  obtain ⟨hrules, hnodup⟩ := faultless_of_fault?_eq_none hfault
  have hwhole : (ofRules version rules).restrict (fun _ => true) = ofRules version rules := by
    simp [restrict, ofRules]
  refine ⟨rfl, ?_⟩
  rw [← hwhole]
  exact coherent_restrict version (fun rule hmem => (hrules rule hmem).1) hnodup _

end RuleSet

/-- A rule set that is made in any of the three ways is coherent, and a loaded one was made of the
rules of its entries, in their order and in their shape. -/
theorem coherent_however_made :
    RuleSet.Coherent {} [] ∧
    (∀ version rules set, RuleSet.build version rules = .ok set →
      set.rules = rules ∧ set.Coherent rules) ∧
    ∀ options tree set, (RuleSet.ofTree options tree).outcome = .ok set →
      ∃ browser items loaded,
        Version.parse options.browserVersion = .ok browser ∧ entries? tree = some items ∧
        List.Forall₂ (fun members rule => ∀ index, (readEntry index members).outcome = .ok rule)
          (supported browser items) loaded ∧
        set.rules = loaded.filter options.keeps ∧ set.Coherent loaded ∧
        ∀ rule ∈ loaded, rule.IsRead := by
  refine ⟨?_, ?_, ?_⟩
  · have hids : ∀ rule ∈ ([] : List Rule), rule.id ≠ 0 := by simp
    exact RuleSet.coherent_restrict {} hids List.nodup_nil fun _ => true
  · intro version rules set h
    exact RuleSet.coherent_of_build h
  · intro options tree set h
    obtain ⟨version, items, browser, rules, -, hitems, hbrowser, hrules, hnodup, rfl⟩ :=
      outcome_ofTree_eq_ok_iff.mp h
    have hread := forall₂_supported hrules
    have hid : ∀ rule ∈ rules, rule.id ≠ 0 :=
      forall_mem_of_forall₂ hread fun members rule hrule => (rule?_id_features hrule).1
    have hshape : ∀ rule ∈ rules, rule.IsRead :=
      forall_mem_of_forall₂ hread fun members rule hrule => rule?_isRead hrule
    refine ⟨browser, items, rules, hbrowser, hitems, ?_, rfl,
      RuleSet.coherent_restrict version hid hnodup options.keeps, hshape⟩
    apply hread.imp
    intro members rule hrule index
    rw [← Report.value?_eq_some_iff, value?_readEntry, hrule]

/-- A rule for another platform with the largest id, and a rule with a vendor that is no number and
two exceptions, of which one has a key that no exception may have and the other a date that is
none. -/
def mixedTree : Json :=
  .object [
    ("version", .string "1.0"),
    ("entries", .array [
      .object [
        ("id", .integer 9),
        ("blacklist", .array [.string "all"]),
        ("os", .object [("type", .string "win")])],
      .object [
        ("id", .integer 7),
        ("blacklist", .array [.string "webgl"]),
        ("vendor_id", .string "nvidia"),
        ("exceptions", .array [
          .object [("disabled", .bool true)],
          .object [("driver_date", .object [("op", .string "<"), ("number", .string "2010")])]])]])]

theorem coherent_however_made_mixedTree :
    (∃ set, (RuleSet.ofTree ⟨"0", .currentOs, .linux⟩ mixedTree).outcome = .ok set ∧
      (set.maxId = 9 ∧ set.unknown ∧
        set.rules.flatMap (fun rule => rule.malformed :: rule.exceptions.map (·.malformed)) =
          [[.vendorId], [.driverDate]]) ∧
      ∃ loaded, set.rules = loaded.filter (LoadOptions.keeps ⟨"0", .currentOs, .linux⟩) ∧
        set.Coherent loaded ∧ ∀ rule ∈ loaded, rule.IsRead) ∧
    ∃ set, RuleSet.build ⟨1, 0⟩ [.ofSettings 3 [.features .all]] = .ok set ∧
      set.Coherent [.ofSettings 3 [.features .all]] := by
  obtain ⟨-, hbuilt, hloaded⟩ := coherent_however_made
  constructor
  · have hread : (RuleSet.ofTree ⟨"0", .currentOs, .linux⟩ mixedTree).outcome.toOption.map
        (fun set => (set.maxId, set.unknown,
          set.rules.flatMap fun rule => rule.malformed :: rule.exceptions.map (·.malformed))) =
        some (9, true, [[.vendorId], [.driverDate]]) := by decide +kernel
    obtain ⟨set, hset, hparts⟩ := Option.map_eq_some_iff.mp hread
    rw [Report.toOption_eq_some_iff] at hset
    simp only [Prod.mk.injEq] at hparts
    obtain ⟨browser, items, loaded, -, -, -, hrules, hcoherent, hshape⟩ := hloaded _ _ _ hset
    exact ⟨set, hset, hparts, loaded, hrules, hcoherent, hshape⟩
  · have hbuild : (RuleSet.build ⟨1, 0⟩ [.ofSettings 3 [.features .all]]).isOk := by decide +kernel
    obtain ⟨set, hset⟩ := Report.isOk_iff.mp hbuild
    exact ⟨set, hset, (hbuilt _ _ _ hset).2⟩

end GpuRules
