import GpuRules.Proofs.Validity.Tree

/-! What a load looks at when it decides whether to succeed. Criteria, descriptions, unknown keys
and the names of features can all be taken out of a configuration, and the rest is still valid or
still is not. -/

namespace GpuRules.Config

open Json (Members)

def only (keys : List String) (change : String → Json → Json) (members : Members) : Members :=
  (members.filter fun member => member.1 ∈ keys).map fun member =>
    (member.1, change member.1 member.2)

theorem get?_only {keys : List String} {key : String} (h : key ∈ keys)
    (change : String → Json → Json) (members : Members) :
    (only keys change members).get? key = (members.get? key).map (change key) := by
  unfold only Members.get?
  induction members with
  | nil => rfl
  | cons member members ih =>
    obtain ⟨other, json⟩ := member
    by_cases heq : key = other
    · subst heq
      rw [List.filter_cons_of_pos (by simpa using h)]
      simp
    · -- The lookup passes over the member, be it kept or not.
      have hbeq : (key == other) = false := by simpa using heq
      rw [List.lookup_cons, hbeq]
      by_cases hother : other ∈ keys
      · rw [List.filter_cons_of_pos (by simpa using hother), List.map_cons, List.lookup_cons, hbeq]
        exact ih
      · rw [List.filter_cons_of_neg (by simpa using hother)]
        exact ih

def bareName : Json → Json
  | .string _ => .string ""
  | json => json

def bareException : Json → Json
  | .object members =>
    .object (only [BugList.cr.key, BugList.webkit.key] (fun _ json => json) members)
  | json => json

def bareEntryMember : String → Json → Json
  | "blacklist", .array items => .array (items.map bareName)
  | "exceptions", .array items => .array (items.map bareException)
  | _, json => json

def bareMembers : Members → Members :=
  only ["id", "browser_version", "blacklist", "exceptions", BugList.cr.key, BugList.webkit.key]
    bareEntryMember

def bareEntry : Json → Json
  | .object members => .object (bareMembers members)
  | json => json

def bareRootMember : String → Json → Json
  | "entries", .array items => .array (items.map bareEntry)
  | _, json => json

/-- A configuration without all that a load only takes note of. -/
def skeleton : Json → Json
  | .object root => .object (only ["version", "entries"] bareRootMember root)
  | json => json

theorem get?_bareMembers_of_kept {key : String} (members : Members)
    (hkey : key ∈ ["id", "browser_version", BugList.cr.key, BugList.webkit.key]) :
    (bareMembers members).get? key = members.get? key := by
  have hkept : key ∈ ["id", "browser_version", "blacklist", "exceptions", BugList.cr.key,
      BugList.webkit.key] := by
    simp only [List.mem_cons] at hkey ⊢
    tauto
  have hchange : bareEntryMember key = id := by
    funext json
    simp only [List.mem_cons, List.not_mem_nil, or_false] at hkey
    rcases hkey with rfl | rfl | rfl | rfl <;> simp [bareEntryMember, BugList.key]
  rw [bareMembers, get?_only hkept, hchange, Option.map_id_fun, id]

theorem validBugs_congr {members members' : Members} {list : BugList}
    (h : members.get? list.key = members'.get? list.key) :
    ValidBugs members list ↔ ValidBugs members' list := by
  unfold ValidBugs
  rw [h]

theorem validBugs_bareMembers (members : Members) (list : BugList) :
    ValidBugs (bareMembers members) list ↔ ValidBugs members list := by
  apply validBugs_congr
  apply get?_bareMembers_of_kept
  cases list <;> simp

theorem browserTest_bareMembers {browser : Version} {members : Members} {meant : Bool} :
    BrowserTest browser (bareMembers members) meant ↔ BrowserTest browser members meant := by
  rw [← supports_eq_ok_iff, ← supports_eq_ok_iff]
  unfold supports
  rw [get?_bareMembers_of_kept members (by simp)]

theorem bareName_isString_iff {item : Json} :
    (∃ name, bareName item = .string name) ↔ ∃ name, item = .string name := by
  cases item <;> simp [bareName]

theorem validException_bareException (item : Json) :
    ValidException (bareException item) ↔ ValidException item := by
  unfold ValidException
  cases item with
  | object members =>
    have hbugs (list : BugList) : ValidBugs (only [BugList.cr.key, BugList.webkit.key]
        (fun _ json => json) members) list ↔ ValidBugs members list := by
      apply validBugs_congr
      rw [get?_only (by cases list <;> simp), Option.map_id']
    simp [bareException, hbugs]
  | _ => simp [bareException]

theorem blacklist_bareMembers_iff {value : Option Json} :
    (∃ items, value.map (bareEntryMember "blacklist") = some (.array items) ∧ items ≠ [] ∧
        ∀ item ∈ items, ∃ name, item = .string name) ↔
      ∃ items, value = some (.array items) ∧ items ≠ [] ∧
        ∀ item ∈ items, ∃ name, item = .string name := by
  cases value with
  | none => simp
  | some json =>
    cases json with
    | array items => simp [bareEntryMember, bareName_isString_iff]
    | _ => simp [bareEntryMember]

theorem exceptions_bareMembers_iff {value : Option Json} :
    (∀ items, value.map (bareEntryMember "exceptions") = some (.array items) →
        ∀ item ∈ items, ValidException item) ↔
      ∀ items, value = some (.array items) → ∀ item ∈ items, ValidException item := by
  cases value with
  | none => simp
  | some json =>
    cases json with
    | array items => simp [bareEntryMember, validException_bareException]
    | _ => simp [bareEntryMember]

theorem validEntry_bareMembers (members : Members) :
    ValidEntry (bareMembers members) ↔ ValidEntry members := by
  have hid : (bareMembers members).get? "id" = members.get? "id" :=
    get?_bareMembers_of_kept members (by simp)
  have hblacklist : (bareMembers members).get? "blacklist" =
      (members.get? "blacklist").map (bareEntryMember "blacklist") := get?_only (by simp) _ _
  have hexceptions : (bareMembers members).get? "exceptions" =
      (members.get? "exceptions").map (bareEntryMember "exceptions") := get?_only (by simp) _ _
  simp only [validEntry_iff, hid, hblacklist, hexceptions, validBugs_bareMembers,
    blacklist_bareMembers_iff, exceptions_bareMembers_iff]

theorem readable_bareEntry {browser : Version} (item : Json) :
    Readable browser (bareEntry item) ↔ Readable browser item := by
  unfold Readable
  cases item with
  | object members => simp [bareEntry, browserTest_bareMembers, validEntry_bareMembers]
  | _ => simp [bareEntry]

theorem distinct_bareEntry {browser : Version} (item item' : Json) :
    Distinct browser (bareEntry item) (bareEntry item') ↔ Distinct browser item item' := by
  have hid (members : Members) : (bareMembers members).get? "id" = members.get? "id" :=
    get?_bareMembers_of_kept members (by simp)
  unfold Distinct
  cases item with
  | object members =>
    cases item' with
    | object members' => simp [bareEntry, browserTest_bareMembers, hid]
    | _ => simp [bareEntry]
  | _ => simp [bareEntry]

theorem validItems_map_bareEntry {browser : Version} {items : List Json} :
    ValidItems browser (items.map bareEntry) ↔ ValidItems browser items := by
  simp only [validItems_iff_readable, List.forall_mem_map, List.pairwise_map, readable_bareEntry,
    distinct_bareEntry]

theorem valid_skeleton_iff (browserVersion : String) (tree : Json) :
    Valid browserVersion (skeleton tree) ↔ Valid browserVersion tree := by
  rw [valid_iff, valid_iff]
  cases tree with
  | object root =>
    have hversion : (only ["version", "entries"] bareRootMember root).get? "version" =
        Members.get? root "version" := by
      rw [get?_only (by simp)]
      cases Members.get? root "version" <;> simp [bareRootMember]
    have hentries : (only ["version", "entries"] bareRootMember root).get? "entries" =
        (Members.get? root "entries").map (bareRootMember "entries") := get?_only (by simp) _ _
    simp only [skeleton, Json.object.injEq, exists_and_left, exists_eq_left', hversion, hentries]
    cases Members.get? root "entries" with
    | none => simp
    | some json =>
      cases json with
      | array items => simp [bareRootMember, validItems_map_bareEntry]
      | _ => simp [bareRootMember]
  | _ => simp [skeleton]

/-- A load succeeds just if the configuration is valid for the browser, and so whatever the filter
is and whatever the configuration says besides its skeleton. -/
theorem loads_iff_valid (options : LoadOptions) (tree : Json) :
    ((∃ set, (RuleSet.ofTree options tree).outcome = .ok set) ↔
        Valid options.browserVersion tree) ∧
      ∀ filter platform,
        (∃ set, (RuleSet.ofTree ⟨options.browserVersion, filter, platform⟩
            (skeleton tree)).outcome = .ok set) ↔
          ∃ set, (RuleSet.ofTree options tree).outcome = .ok set := by
  apply And.intro
  · exact exists_outcome_eq_ok_iff options tree
  · intro filter platform
    rw [exists_outcome_eq_ok_iff, exists_outcome_eq_ok_iff]
    exact valid_skeleton_iff options.browserVersion tree

end GpuRules.Config
