import GpuRules.Proofs.Reading.Tree
import GpuRules.Proofs.Validity.Entry

/-! Which configurations load. Entries for other browsers only have to say so; those for the browser
are read in full, and no two of them may have one id. -/

namespace GpuRules.Config

open Json (Members)

def Readable (browser : Version) (item : Json) : Prop :=
  ∃ members meant, item = .object members ∧ BrowserTest browser members meant ∧
    (meant → ValidEntry members)

/-- Two items that are not both entries for the browser with one id. -/
def Distinct (browser : Version) (item item' : Json) : Prop :=
  ∀ members : Members, item = .object members →
    ∀ members' : Members, item' = .object members' →
      BrowserTest browser members true → BrowserTest browser members' true →
        members.get? "id" ≠ members'.get? "id"

@[mk_iff validItems_iff_readable]
structure ValidItems (browser : Version) (items : List Json) : Prop where
  readable : ∀ item ∈ items, Readable browser item
  distinct : items.Pairwise (Distinct browser)

/-- A configuration that can be read. Only its version, its entries and the browser matter. -/
@[mk_iff]
structure Valid (browserVersion : String) (tree : Json) : Prop where
  version : ∃ (root : Members) (text : String) (major minor : UInt16), tree = .object root ∧
    root.get? "version" = some (.string text) ∧ Version.parse text = .ok ⟨[major, minor]⟩
  entries : ∃ (root : Members) (items : List Json) (browser : Version), tree = .object root ∧
    root.get? "entries" = some (.array items) ∧ Version.parse browserVersion = .ok browser ∧
    ValidItems browser items

theorem isSome_item?_iff {browser : Version} {item : Json} :
    (item? browser item).isSome ↔ Readable browser item := by
  unfold item? Readable
  cases item with
  | object members =>
    simp only [Json.object?, Option.bind_eq_bind, Option.bind_some, Json.object.injEq,
      exists_and_left, exists_eq_left', ← supports_eq_ok_iff, ← isSome_rule?_iff]
    cases supports browser members with
    | error error => simp [Except.toOption]
    | ok meant => cases meant <;> simp [Except.toOption]
  | _ => simp [Json.object?]

theorem nodup_ids_iff {entries : List Members} {rules : List Rule}
    (h : List.Forall₂ (fun members rule => rule? members = some rule) entries rules) :
    (rules.map (·.id)).Nodup ↔
      entries.Pairwise fun members members' => members.get? "id" ≠ members'.get? "id" := by
  have hids : entries.map (·.get? "id") =
      rules.map fun rule => some (.integer rule.id.toNat) := by
    rw [← List.forall₂_eq_eq_eq, List.forall₂_map_left_iff, List.forall₂_map_right_iff]
    apply h.imp
    intro members rule hrule
    exact rule?_id hrule
  have hinj (rule rule' : Rule) : rule.id ≠ rule'.id ↔
      some (Json.integer rule.id.toNat) ≠ some (.integer rule'.id.toNat) := by
    simp only [ne_eq, ← UInt32.toNat_inj, Option.some.injEq, Json.integer.injEq]
    omega
  have hrules : (rules.map (·.id)).Nodup ↔
      (rules.map fun rule => some (Json.integer rule.id.toNat)).Pairwise (· ≠ ·) := by
    rw [List.Nodup, List.pairwise_map, List.pairwise_map]
    simp only [hinj]
  rw [hrules, ← hids, List.pairwise_map]

theorem pairwise_supported_iff {browser : Version} {items : List Json} :
    ((supported browser items).Pairwise fun members members' =>
        members.get? "id" ≠ members'.get? "id") ↔ items.Pairwise (Distinct browser) := by
  unfold supported
  rw [List.pairwise_filter, List.pairwise_filterMap]
  simp only [object?_eq_some_iff, decide_eq_true_eq, Report.toOption_eq_some_iff,
    supports_eq_ok_iff]
  rfl

theorem validItems_iff {browser : Version} {items : List Json} :
    ValidItems browser items ↔
      ∃ rules, rules? browser items = some rules ∧ (rules.map (·.id)).Nodup := by
  have hreadable : (rules? browser items).isSome ↔ ∀ item ∈ items, Readable browser item := by
    simp only [rules?, Option.isSome_map, isSome_mapM_iff, isSome_item?_iff]
  apply Iff.intro
  · intro h
    obtain ⟨rules, hrules⟩ := Option.isSome_iff_exists.mp (hreadable.mpr h.readable)
    refine ⟨rules, hrules, ?_⟩
    rw [nodup_ids_iff (forall₂_supported hrules)]
    exact pairwise_supported_iff.mpr h.distinct
  · intro h
    obtain ⟨rules, hrules, hnodup⟩ := h
    rw [nodup_ids_iff (forall₂_supported hrules)] at hnodup
    exact ⟨hreadable.mp (Option.isSome_of_eq_some hrules), pairwise_supported_iff.mp hnodup⟩

theorem isSome_schema?_iff {tree : Json} :
    (schema? tree).isSome ↔ ∃ (root : Members) (text : String) (major minor : UInt16),
      tree = .object root ∧ root.get? "version" = some (.string text) ∧
        Version.parse text = .ok ⟨[major, minor]⟩ := by
  have hparts (text : String) : (schemaVersion text).toOption.isSome ↔
      ∃ major minor, Version.parse text = .ok ⟨[major, minor]⟩ := by
    unfold schemaVersion
    split
    next major minor hparse => simp [hparse, Except.toOption]
    next hparse =>
      simp only [Except.toOption, Option.isSome_none, Bool.false_eq_true, false_iff, not_exists]
      exact hparse
  cases tree with
  | object root =>
    simp only [schema?, Json.object?, Option.bind_eq_bind, Option.bind_some, Json.object.injEq,
      exists_and_left, exists_eq_left', ← hparts]
    cases Members.get? root "version" with
    | none => simp
    | some json => cases json <;> simp [Json.string?]
  | _ => simp [schema?, Json.object?]

theorem entries?_eq_some_iff {tree : Json} {items : List Json} :
    entries? tree = some items ↔ ∃ root : Members, tree = .object root ∧
      root.get? "entries" = some (.array items) := by
  unfold entries?
  simp only [Option.bind_eq_bind, Option.bind_eq_some_iff, object?_eq_some_iff, array?_eq_some_iff,
    exists_eq_right]

theorem exists_outcome_eq_ok_iff (options : LoadOptions) (tree : Json) :
    (∃ set, (RuleSet.ofTree options tree).outcome = .ok set) ↔
      Valid options.browserVersion tree := by
  simp only [outcome_ofTree_eq_ok_iff]
  apply Iff.intro
  · intro h
    obtain ⟨_, version, items, browser, rules, hversion, hitems, hbrowser, hrules, hnodup, -⟩ := h
    obtain ⟨root, htree, hentries⟩ := entries?_eq_some_iff.mp hitems
    exact ⟨isSome_schema?_iff.mp (Option.isSome_of_eq_some hversion), root, items, browser, htree,
      hentries, hbrowser, validItems_iff.mpr ⟨rules, hrules, hnodup⟩⟩
  · intro h
    obtain ⟨root, items, browser, htree, hentries, hbrowser, hvalid⟩ := h.entries
    obtain ⟨version, hversion⟩ := Option.isSome_iff_exists.mp (isSome_schema?_iff.mpr h.version)
    obtain ⟨rules, hrules, hnodup⟩ := validItems_iff.mp hvalid
    exact ⟨_, version, items, browser, rules, hversion,
      entries?_eq_some_iff.mpr ⟨root, htree, hentries⟩, hbrowser, hrules, hnodup, rfl⟩

end GpuRules.Config
