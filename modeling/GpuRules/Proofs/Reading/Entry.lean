import GpuRules.Config.Entry
import GpuRules.Proofs.Reading.Value

/-! What entries and exceptions are read as. Each reader of an entry has a value that depends on the
entry alone, not on the place or the name under which its messages are reported. -/

namespace GpuRules.Config

open Json (Members)

theorem object?_eq_some_iff {json : Json} {members : Members} :
    json.object? = some members ↔ json = .object members := by
  cases json <;> simp [Json.object?]

theorem array?_eq_some_iff {json : Json} {items : List Json} :
    json.array? = some items ↔ json = .array items := by
  cases json <;> simp [Json.array?]

theorem string?_eq_some_iff {json : Json} {text : String} :
    json.string? = some text ↔ json = .string text := by
  cases json <;> simp [Json.string?]

theorem mem_knownIf {α : Type} {key name : String} {value : Option α} :
    key ∈ knownIf name value ↔ key = name ∧ value.isSome := by
  unfold knownIf
  split <;> simp_all

def bugs? (members : Members) (list : BugList) : Option (List Int64) :=
  match members.get? list.key >>= Json.array? with
  | none => some []
  | some items => items.mapM bug?

def sharedKeys (members : Members) : List String :=
  knownIf "description" (members.get? "description" >>= Json.string?) ++
    knownIf BugList.cr.key (members.get? BugList.cr.key >>= Json.array?) ++
    knownIf BugList.webkit.key (members.get? BugList.webkit.key >>= Json.array?) ++
    (Fields.read members).recognised

def entryKeys (members : Members) : List String :=
  "id" :: "blacklist" :: "browser_version" ::
    knownIf "disabled" (members.get? "disabled" >>= Json.bool?) ++
    knownIf "exceptions" (members.get? "exceptions" >>= Json.array?) ++ sharedKeys members

def bodyOf (members : Members) (crBugs webkitBugs : List Int64) : RuleBody where
  description := (members.get? "description" >>= Json.string?).getD ({} : RuleBody).description
  crBugs := crBugs
  webkitBugs := webkitBugs
  conditions := (Fields.read members).conditions
  malformed := (Fields.read members).errors.map Prod.fst

def body? (members : Members) : Option RuleBody := do
  let crBugs ← bugs? members .cr
  let webkitBugs ← bugs? members .webkit
  return bodyOf members crBugs webkitBugs

def exception? (members : Members) : Option Rule := do
  let body ← body? members
  return { body with unknownFields := hasUnknown (sharedKeys members) members }

/-- All exceptions of an entry, also those that are dropped. -/
def exceptions? (members : Members) : Option (List Rule) :=
  ((members.get? "exceptions" >>= Json.array?).getD []).mapM fun item =>
    item.object? >>= exception?

def blacklist? (members : Members) : Option (List String) := do
  let items ← members.get? "blacklist" >>= Json.array?
  if items.isEmpty then none else items.mapM Json.string?

def rule? (members : Members) : Option Rule := do
  let id ← members.get? "id" >>= id?
  let body ← body? members
  let names ← blacklist? members
  let exceptions ← exceptions? members
  return {
    body with
    id
    disabled := (members.get? "disabled" >>= Json.bool?).getD false
    features := .union (names.filterMap FeatureMask.ofName?)
    unknownFeatures := names.any fun name => (FeatureMask.ofName? name).isNone
    exceptions := exceptions.filter fun rule => !rule.unknownFields
    unknownFields :=
      exceptions.any (·.unknownFields) || hasUnknown (entryKeys members) members }

/-! What can be read has all of its parts. -/

theorem body?_eq_some {members : Members} {body : RuleBody} (h : body? members = some body) :
    ∃ crBugs webkitBugs, body = bodyOf members crBugs webkitBugs := by
  simp only [body?, Option.bind_eq_bind, Option.bind_eq_some_iff, Option.pure_def,
    Option.some.injEq] at h
  obtain ⟨crBugs, -, webkitBugs, -, rfl⟩ := h
  exact ⟨crBugs, webkitBugs, rfl⟩

theorem exception?_eq_some {members : Members} {rule : Rule} (h : exception? members = some rule) :
    ∃ body, body? members = some body ∧
      rule = { body with unknownFields := hasUnknown (sharedKeys members) members } := by
  simp only [exception?, Option.bind_eq_bind, Option.bind_eq_some_iff, Option.pure_def,
    Option.some.injEq] at h
  obtain ⟨body, hbody, rfl⟩ := h
  exact ⟨body, hbody, rfl⟩

theorem rule?_eq_some {members : Members} {rule : Rule} (h : rule? members = some rule) :
    ∃ id body names exceptions,
      members.get? "id" >>= id? = some id ∧ body? members = some body ∧
      blacklist? members = some names ∧ exceptions? members = some exceptions ∧
      rule = {
        body with
        id
        disabled := (members.get? "disabled" >>= Json.bool?).getD false
        features := .union (names.filterMap FeatureMask.ofName?)
        unknownFeatures := names.any fun name => (FeatureMask.ofName? name).isNone
        exceptions := exceptions.filter fun rule => !rule.unknownFields
        unknownFields :=
          exceptions.any (·.unknownFields) || hasUnknown (entryKeys members) members } := by
  simp only [rule?, Option.bind_eq_bind, Option.bind_eq_some_iff, Option.pure_def,
    Option.some.injEq] at h
  obtain ⟨id, hid, body, hbody, names, hnames, exceptions, hexceptions, rfl⟩ := h
  exact ⟨id, body, names, exceptions, Option.bind_eq_some_iff.mpr hid, hbody, hnames, hexceptions,
    rfl⟩

/-! The readers have these values. -/

theorem value?_readBugs (owner : UInt32) (members : Members) (list : BugList) :
    (readBugs owner list (members.get? list.key >>= Json.array?)).value? = bugs? members list := by
  unfold readBugs bugs?
  cases members.get? list.key >>= Json.array? with
  | none => rfl
  | some items => exact Report.value?_require _ _

theorem value?_readBody (owner : UInt32) (members : Members) :
    (readBody owner members).value? =
      (body? members).map fun body => (body, sharedKeys members) := by
  unfold readBody
  simp only [Report.value?_bind, Report.value?_note, Report.value?_pure, value?_readBugs,
    Option.bind_some]
  unfold body?
  cases bugs? members .cr with
  | none => rfl
  | some crBugs =>
    cases bugs? members .webkit with
    | none => rfl
    | some webkitBugs => rfl

theorem value?_readException (owner : UInt32) (members : Members) :
    (readException owner members).value? = exception? members := by
  unfold readException noteUnknown exception?
  simp only [Report.value?_bind, Report.value?_note, Report.value?_pure, value?_readBody]
  cases body? members <;> rfl

theorem value?_readExceptions (owner : UInt32) (index : Nat) (items : List Json) :
    (readExceptions owner index items).value? =
      (items.mapM fun item => item.object? >>= exception?).map fun rules =>
        (rules.filter fun rule => !rule.unknownFields, rules.any (·.unknownFields)) := by
  induction items generalizing index with
  | nil => rfl
  | cons item items ih =>
    rw [readExceptions]
    simp only [Report.value?_bind, Report.value?_require, value?_readException, List.mapM_cons]
    cases item.object? with
    | none => rfl
    | some members =>
      simp only [Option.bind_some, Option.bind_eq_bind]
      cases exception? members with
      | none => rfl
      | some rule =>
        simp only [Option.bind_some]
        by_cases hunknown : rule.unknownFields
        · rw [if_pos hunknown]
          simp only [Report.value?_bind, Report.value?_note, Report.value?_pure, ih]
          cases items.mapM fun item => item.object? >>= exception? with
          | none => rfl
          | some rules => simp [hunknown]
        · rw [if_neg hunknown]
          simp only [Report.value?_bind, Report.value?_pure, ih]
          cases items.mapM fun item => item.object? >>= exception? with
          | none => rfl
          | some rules => simp [hunknown]

theorem value?_readFeatures (id : UInt32) (items : List Json) :
    (readFeatures id items).value? =
      (items.mapM Json.string?).map fun names =>
        (.union (names.filterMap FeatureMask.ofName?),
          names.any fun name => (FeatureMask.ofName? name).isNone) := by
  induction items with
  | nil => rfl
  | cons item items ih =>
    rw [readFeatures]
    simp only [Report.value?_bind, Report.value?_require, List.mapM_cons]
    cases item.string? with
    | none => rfl
    | some name =>
      simp only [Option.bind_some, Option.bind_eq_bind]
      cases hmask : FeatureMask.ofName? name with
      | none =>
        simp only [Report.value?_bind, Report.value?_note, Report.value?_pure, ih]
        cases items.mapM Json.string? with
        | none => rfl
        | some names => simp [hmask]
      | some mask =>
        simp only [Report.value?_bind, Report.value?_pure, ih]
        cases items.mapM Json.string? with
        | none => rfl
        | some names => simp [hmask, FeatureMask.union]

theorem value?_readEntry (index : Nat) (members : Members) :
    (readEntry index members).value? = rule? members := by
  unfold readEntry rule? blacklist? exceptions?
  simp only [Report.value?_bind, Report.value?_require, value?_readBody]
  cases members.get? "id" >>= id? with
  | none => rfl
  | some id =>
    cases body? members with
    | none => rfl
    | some body =>
      cases members.get? "blacklist" >>= Json.array? with
      | none => rfl
      | some items =>
        simp only [Option.map_some, Option.bind_some, Option.bind_eq_bind]
        by_cases hempty : items.isEmpty
        · rw [if_pos hempty, if_pos hempty]
          rfl
        · rw [if_neg hempty, if_neg hempty]
          simp only [Report.value?_bind, Report.value?_pure, value?_readFeatures,
            value?_readExceptions]
          cases items.mapM Json.string? with
          | none => rfl
          | some names =>
            cases (((members.get? "exceptions").bind Json.array?).getD []).mapM
              fun item => item.object?.bind exception? with
            | none => rfl
            | some rules => rfl

theorem mem_exceptions_iff {members : Members} {item : Json} :
    item ∈ (members.get? "exceptions" >>= Json.array?).getD [] ↔
      ∃ items, members.get? "exceptions" = some (.array items) ∧ item ∈ items := by
  cases members.get? "exceptions" with
  | none => simp
  | some json => cases json <;> simp [Json.array?]

theorem integer_of_id? {json : Json} {id : UInt32} (h : id? json = some id) :
    json = .integer id.toNat := by
  unfold id? at h
  split at h
  next value =>
    obtain ⟨⟨hpos, hlt⟩, rfl⟩ : (0 < value ∧ value < UInt32.size) ∧
        UInt32.ofNat value.toNat = id := by simpa using h
    have hsmall : value.toNat < UInt32.size := by omega
    rw [UInt32.toNat_ofNat_of_lt' hsmall]
    congr 1
    omega
  next => simp at h

theorem id?_eq_some_iff {json : Json} {id : UInt32} :
    id? json = some id ↔ json = .integer id.toNat ∧ id ≠ 0 := by
  apply Iff.intro
  · intro h
    have hjson := integer_of_id? h
    refine ⟨hjson, ?_⟩
    rintro rfl
    rw [hjson] at h
    cases h
  · rintro ⟨rfl, hne⟩
    have hpos : 0 < id.toNat := by
      apply Nat.pos_of_ne_zero
      intro hzero
      exact hne (UInt32.toNat.inj hzero)
    have hlt := id.toNat_lt_size
    have hrange : 0 < (id.toNat : Int) ∧ (id.toNat : Int) < UInt32.size := by omega
    simp only [id?, if_pos hrange, Int.toNat_natCast, UInt32.ofNat_toNat]

theorem rule?_id {members : Members} {rule : Rule} (h : rule? members = some rule) :
    members.get? "id" = some (.integer rule.id.toNat) := by
  obtain ⟨id, body, names, exceptions, hread, -, -, -, rfl⟩ := rule?_eq_some h
  obtain ⟨json, hget, hid⟩ := Option.bind_eq_some_iff.mp hread
  rw [hget, integer_of_id? hid]

end GpuRules.Config
