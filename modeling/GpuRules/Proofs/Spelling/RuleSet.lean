import GpuRules.Proofs.Features
import GpuRules.Proofs.Reading.Root
import GpuRules.Proofs.Spelling.Entry

/-! Two ways to one rule set: a configuration is loaded, or its rules are made by hand. Either gives
the same set, or fails at the same rule for the same reason. -/

namespace GpuRules.Spelling

open Config
open Json (Members)

def Draft.json (draft : Draft) : Json := .object draft.members

theorem supports_members (browser : Version) (draft : Draft) :
    supports browser draft.members = .ok true := by
  have hnone : draft.members.get? "browser_version" = none := by
    cases hget : draft.members.get? "browser_version" with
    | none => rfl
    | some json =>
      rcases (extends_members draft).known _ json hget with hallowed | hown
      · exact absurd hallowed (not_allowed_of_mem_entryTable (by decide) json)
      · cases hown
  unfold supports
  rw [hnone]

theorem rule_id (draft : Draft) : draft.rule.id = draft.id := by
  obtain ⟨description, crBugs, webkitBugs, conditions, hframe⟩ := (extends_members draft).frame
  rw [rule_eq, hframe]

theorem rule_features (draft : Draft) : draft.rule.features.isEmpty = false := by
  obtain ⟨description, crBugs, webkitBugs, conditions, hframe⟩ := (extends_members draft).frame
  rw [rule_eq, hframe, Bool.eq_false_iff]
  change ¬draft.features.isEmpty
  unfold Draft.features
  rw [FeatureMask.isEmpty_names_iff]
  intro hnone
  obtain ⟨name, hname⟩ := List.exists_mem_of_ne_nil _ draft.nonempty
  have hsome := draft.recognised name hname
  rw [hnone name hname] at hsome
  cases hsome

theorem outcome_readItem (browser : Version) (index : Nat) (draft : Draft) :
    (readItem browser index draft.json).outcome =
      if draft.id = 0 then .error (.invalidId index) else .ok (some draft.rule) := by
  have hitem : readItem browser index draft.json =
      readEntry index draft.members >>= fun rule => pure (some rule) := by
    unfold readItem Draft.json
    simp only [Json.object?, Report.require_some, Report.pure_bind, supports_members,
      Except.mapError, Report.ofExcept_ok, ↓reduceIte]
  have hid := (extends_members draft).kept "id" _ rfl
  rw [hitem, Report.outcome_bind]
  split
  · next hzero =>
    have hnone : (draft.members.get? "id" >>= id?) = none := by
      rw [hid, hzero]
      rfl
    obtain ⟨rest, -, hentry⟩ := exists_readEntry_eq draft.members
    rw [hentry, hnone]
    rfl
  · next hid =>
    have hread : (readEntry index draft.members).outcome = .ok draft.rule := by
      rw [← Report.value?_eq_some_iff, value?_readEntry]
      exact rule?_members draft hid
    rw [hread]
    rfl

theorem outcome_readItems (browser : Version) (index : Nat) (seen : List UInt32)
    (drafts : List Draft) :
    (readItems browser index seen (drafts.map Draft.json)).outcome =
      match RuleSet.fault? index seen (drafts.map Draft.rule) with
      | some error => .error error
      | none => .ok (drafts.map Draft.rule) := by
  induction drafts generalizing index seen with
  | nil => rfl
  | cons draft rest ih =>
    rw [List.map_cons, List.map_cons, readItems, RuleSet.fault?, Report.outcome_bind,
      outcome_readItem, rule_id, rule_features]
    by_cases hzero : draft.id = 0
    · rw [if_pos hzero, if_pos hzero]
      rfl
    · rw [if_neg hzero, if_neg hzero]
      simp only [Except.bind, rule_id]
      by_cases hseen : draft.id ∈ seen
      · rw [if_pos hseen, if_pos hseen]
        rfl
      · rw [if_neg hseen, if_neg hseen, if_neg (by decide), Report.outcome_bind, ih]
        cases RuleSet.fault? (index + 1) (draft.id :: seen) (rest.map Draft.rule) <;> rfl

theorem fault?_drafts {index : Nat} {seen : List UInt32} {drafts : List Draft} {error : LoadError}
    (h : RuleSet.fault? index seen (drafts.map Draft.rule) = some error) :
    (∃ place, error = .invalidId place) ∨ ∃ id, error = .duplicateId id := by
  induction drafts generalizing index seen with
  | nil => cases h
  | cons draft rest ih =>
    rw [List.map_cons, RuleSet.fault?, rule_features] at h
    split at h
    · cases h
      exact .inl ⟨index, rfl⟩
    · split at h
      · cases h
        exact .inr ⟨_, rfl⟩
      · exact ih h

/-- Loading drafts is building them, whether they make a rule set or not. -/
theorem ofTree_eq_build {browserVersion : String} {browser : Version} {root : Members}
    {text : String} {version : SchemaVersion}
    (hbrowser : Version.parse browserVersion = .ok browser)
    (htext : root.get? "version" = some (.string text)) (hversion : schemaVersion text = .ok version)
    (platform : OsType) (drafts : List Draft) :
    (RuleSet.ofTree ⟨browserVersion, .all, platform⟩
        (withEntries root (drafts.map Draft.json))).outcome =
      RuleSet.build version (drafts.map Draft.rule) ∧
    ∀ error, RuleSet.build version (drafts.map Draft.rule) = .error error →
      (∃ index, error = .invalidId index) ∨ ∃ id, error = .duplicateId id := by
  have hkeeps : LoadOptions.keeps ⟨browserVersion, .all, platform⟩ = fun _ => true := rfl
  have hload := @ofTree_withEntries ⟨browserVersion, .all, platform⟩ browser root text version
    hbrowser htext hversion
  constructor
  · rw [hload, Report.outcome_bind, outcome_readItems]
    unfold RuleSet.build
    cases RuleSet.fault? 0 [] (drafts.map Draft.rule) with
    | some error => rfl
    | none =>
      rw [hkeeps]
      change Except.ok ((RuleSet.ofRules version (drafts.map Draft.rule)).restrict _) = _
      simp [RuleSet.restrict, RuleSet.ofRules]
  · intro error herror
    unfold RuleSet.build at herror
    split at herror
    · next other hfault =>
      cases herror
      exact fault?_drafts hfault
    · cases herror

/-- Words that leave the release open and that name a vendor in capitals. -/
def windowsDraft (id : UInt32) : Draft where
  id := id
  disabled := false
  names := ["webgl", "multisampling"]
  clauses := [
    .criterion .os ⟨⟨"win", none⟩, ⟨.windows, .any⟩, rfl⟩,
    .criterion .vendorId (0x10de : UInt32),
    .bugs .cr [72373]]
  exceptions := [[
    .criterion .glVendor ⟨fun key => if key = "op" then "=" else "NVIDIA", ⟨.eq, "nvidia"⟩, rfl⟩]]
  nonempty := by decide
  recognised := by decide

theorem ofTree_eq_build_windowsDraft :
    let rules := [windowsDraft 7, windowsDraft 8].map Draft.rule
    (RuleSet.ofTree ⟨"20", .all, .linux⟩ (withEntries [("version", .string "1.0")]
        ([windowsDraft 7, windowsDraft 8].map Draft.json))).outcome =
      RuleSet.build ⟨1, 0⟩ rules ∧
    (RuleSet.build ⟨1, 0⟩ rules).isOk := by
  intro rules
  have hbrowser : (Version.parse "20").toOption.map (·.components) = some [20] := by decide +kernel
  obtain ⟨browser, hbrowser, -⟩ := Option.map_eq_some_iff.mp hbrowser
  have hversion : (schemaVersion "1.0").toOption = some ⟨1, 0⟩ := by decide +kernel
  rw [Report.toOption_eq_some_iff] at hbrowser hversion
  have hbuild : (RuleSet.build ⟨1, 0⟩ rules).isOk := by decide +kernel
  have htext : Members.get? [("version", .string "1.0")] "version" = some (.string "1.0") := rfl
  have hloads := ofTree_eq_build hbrowser htext hversion .linux [windowsDraft 7, windowsDraft 8]
  exact ⟨hloads.1, hbuild⟩

end GpuRules.Spelling
