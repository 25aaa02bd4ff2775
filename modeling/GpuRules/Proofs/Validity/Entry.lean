import GpuRules.Config.Load
import GpuRules.Proofs.Reading.Entry

/-! Which entries can be read. An entry needs an id and a list of names, its bugs have to be whole
numbers of 64 bits, and its exceptions have to be objects; nothing else in it can make a load fail,
and nothing at all if the entry is for other browsers. -/

namespace GpuRules.Config

open Json (Members)

/-- The text that an object has under a key, which may stand for a default by its absence. -/
inductive TextAt (members : Members) (key default : String) : String → Prop
  | missing : members.get? key = none → TextAt members key default default
  | given {text : String} : members.get? key = some (.string text) →
      TextAt members key default text

/-- Whether an entry is for the browser, as far as it says so in a way that can be read. -/
inductive BrowserTest (browser : Version) (members : Members) : Bool → Prop
  | missing : members.get? "browser_version" = none → BrowserTest browser members true
  | given {fields : Members} {op number number2 : String} {criterion : VersionCriterion} :
      members.get? "browser_version" = some (.object fields) →
      TextAt fields "op" "any" op → TextAt fields "number" "" number →
      TextAt fields "number2" "" number2 →
      VersionCriterion.parse op "" number number2 = .ok criterion →
      BrowserTest browser members (criterion.contains browser)

def ValidBugs (members : Members) (list : BugList) : Prop :=
  ∀ items, members.get? list.key = some (.array items) → ∀ item ∈ items,
    ∃ value, item = .integer value ∧
      Int64.minValue.toInt ≤ value ∧ value ≤ Int64.maxValue.toInt

def ValidException (item : Json) : Prop :=
  ∃ exception, item = .object exception ∧ ∀ list, ValidBugs exception list

@[mk_iff]
structure ValidEntry (members : Members) : Prop where
  id : ∃ value, members.get? "id" = some (.integer value) ∧ 0 < value ∧ value < UInt32.size
  bugs : ∀ list, ValidBugs members list
  blacklist : ∃ items, members.get? "blacklist" = some (.array items) ∧ items ≠ [] ∧
    ∀ item ∈ items, ∃ name, item = .string name
  exceptions : ∀ items, members.get? "exceptions" = some (.array items) →
    ∀ item ∈ items, ValidException item

theorem textAt_eq_ok_iff {members : Members} {key text : String} :
    textAt members key = .ok text ↔ TextAt members key "" text := by
  unfold textAt
  constructor
  · intro h
    split at h
    next hget =>
      cases h
      exact .missing hget
    next hget =>
      cases h
      exact .given hget
    next => cases h
  · intro h
    cases h with
    | missing hget => rw [hget]
    | given hget => rw [hget]

theorem operatorOrAny_eq_ok_iff {members : Members} {op : String} :
    operatorOrAny members = .ok op ↔ TextAt members "op" "any" op := by
  unfold operatorOrAny
  constructor
  · intro h
    split at h
    next hget =>
      cases h
      exact .missing hget
    next json hget =>
      cases textAt_eq_ok_iff.mp h with
      | missing hnone =>
        rw [hnone] at hget
        cases hget
      | given hgiven => exact .given hgiven
  · intro h
    cases h with
    | missing hget => rw [hget]
    | given hget =>
      rw [hget]
      exact textAt_eq_ok_iff.mpr (.given hget)

theorem supports_eq_ok_iff {browser : Version} {members : Members} {meant : Bool} :
    supports browser members = .ok meant ↔ BrowserTest browser members meant := by
  unfold supports
  constructor
  · intro h
    split at h
    next hget =>
      cases h
      exact .missing hget
    next fields hget =>
      simp only [Report.bind_eq_ok_iff] at h
      obtain ⟨op, hop, number, hnumber, number2, hnumber2, criterion, hparse, hmeant⟩ := h
      cases hmeant
      exact .given hget (operatorOrAny_eq_ok_iff.mp hop) (textAt_eq_ok_iff.mp hnumber)
        (textAt_eq_ok_iff.mp hnumber2) hparse
    next => cases h
  · intro h
    cases h with
    | missing hget => rw [hget]
    | given hget hop hnumber hnumber2 hparse =>
      rw [hget]
      simp only [Report.bind_eq_ok_iff]
      exact ⟨_, operatorOrAny_eq_ok_iff.mpr hop, _, textAt_eq_ok_iff.mpr hnumber, _,
        textAt_eq_ok_iff.mpr hnumber2, _, hparse, rfl⟩

theorem isSome_bug?_iff {json : Json} :
    (bug? json).isSome ↔ ∃ value, json = .integer value ∧
      Int64.minValue.toInt ≤ value ∧ value ≤ Int64.maxValue.toInt := by
  unfold bug?
  cases json with
  | integer value =>
    simp only [Json.integer.injEq, exists_eq_left']
    split <;> simp_all
  | _ => simp

theorem isSome_id?_iff {json : Json} :
    (id? json).isSome ↔ ∃ value, json = .integer value ∧ 0 < value ∧ value < UInt32.size := by
  unfold id?
  cases json with
  | integer value =>
    simp only [Json.integer.injEq, exists_eq_left']
    split <;> simp_all
  | _ => simp

theorem isSome_bugs?_iff {members : Members} {list : BugList} :
    (bugs? members list).isSome ↔ ValidBugs members list := by
  unfold bugs? ValidBugs
  cases members.get? list.key with
  | none => simp
  | some json =>
    cases json with
    | array items => simp [Json.array?, isSome_mapM_iff, isSome_bug?_iff]
    | _ => simp [Json.array?]

theorem isSome_body?_iff {members : Members} :
    (body? members).isSome ↔ ∀ list, ValidBugs members list := by
  have hlists : (∀ list, ValidBugs members list) ↔
      (bugs? members .cr).isSome ∧ (bugs? members .webkit).isSome := by
    rw [isSome_bugs?_iff, isSome_bugs?_iff]
    apply Iff.intro
    · intro h
      exact ⟨h .cr, h .webkit⟩
    · intro h list
      cases list with
      | cr => exact h.1
      | webkit => exact h.2
  rw [hlists]
  unfold body?
  cases bugs? members .cr with
  | none => simp
  | some crBugs => cases bugs? members .webkit <;> simp

theorem isSome_exception?_iff {members : Members} :
    (exception? members).isSome ↔ ∀ list, ValidBugs members list := by
  rw [← isSome_body?_iff]
  unfold exception?
  cases body? members <;> simp

theorem isSome_exceptions?_iff {members : Members} :
    (exceptions? members).isSome ↔
      ∀ items, members.get? "exceptions" = some (.array items) →
        ∀ item ∈ items, ValidException item := by
  have hitem (item : Json) : (item.object? >>= exception?).isSome ↔ ValidException item := by
    cases item with
    | object exception => simp [ValidException, Json.object?, isSome_exception?_iff]
    | _ => simp [ValidException, Json.object?]
  unfold exceptions?
  simp only [isSome_mapM_iff, mem_exceptions_iff, hitem]
  apply Iff.intro
  · intro h items hitems item hmem
    exact h item ⟨items, hitems, hmem⟩
  · intro h item hmem
    obtain ⟨items, hitems, hmem⟩ := hmem
    exact h items hitems item hmem

theorem isSome_blacklist?_iff {members : Members} :
    (blacklist? members).isSome ↔
      ∃ items, members.get? "blacklist" = some (.array items) ∧ items ≠ [] ∧
        ∀ item ∈ items, ∃ name, item = .string name := by
  have hname (item : Json) : item.string?.isSome ↔ ∃ name, item = .string name := by
    cases item <;> simp [Json.string?]
  unfold blacklist?
  cases members.get? "blacklist" with
  | none => simp
  | some json =>
    cases json with
    | array items =>
      by_cases hempty : items = []
      · simp [Json.array?, hempty]
      · simp [Json.array?, hempty, isSome_mapM_iff, hname]
    | _ => simp [Json.array?]

theorem isSome_rule?_iff {members : Members} : (rule? members).isSome ↔ ValidEntry members := by
  have hid : (members.get? "id" >>= id?).isSome ↔
      ∃ value, members.get? "id" = some (.integer value) ∧ 0 < value ∧ value < UInt32.size := by
    cases members.get? "id" with
    | none => simp
    | some json => simp [isSome_id?_iff]
  have hparts : (rule? members).isSome ↔
      (members.get? "id" >>= id?).isSome ∧ (body? members).isSome ∧
        (blacklist? members).isSome ∧ (exceptions? members).isSome := by
    unfold rule?
    cases members.get? "id" >>= id? with
    | none => simp
    | some id =>
      cases body? members with
      | none => simp
      | some body =>
        cases blacklist? members with
        | none => simp
        | some names => cases exceptions? members <;> simp
  rw [hparts, hid, isSome_body?_iff, isSome_blacklist?_iff, isSome_exceptions?_iff]
  apply Iff.intro
  · intro h
    exact ⟨h.1, h.2.1, h.2.2.1, h.2.2.2⟩
  · intro h
    exact ⟨h.id, h.bugs, h.blacklist, h.exceptions⟩

end GpuRules.Config
