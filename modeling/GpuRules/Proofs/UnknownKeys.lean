import GpuRules.Proofs.Reading.Insertion
import GpuRules.Proofs.Reading.Keys
import Mathlib.Data.List.Perm.Subperm

/-! The marks for what is not known in an entry. Keys are known by a table, with the kind of value
that each asks for; no other key is known, and exceptions know fewer of them. Counting the values
that are read comes to the same thing, because no two reads go to one key. -/

namespace GpuRules.Config

open Json (Members)

inductive AllowedInEntry : String → Json → Prop
  | shared {key : String} {json : Json} : Allowed key json → AllowedInEntry key json
  | id {value : Int} : 0 ≤ value → AllowedInEntry "id" (.integer value)
  | disabled (value : Bool) : AllowedInEntry "disabled" (.bool value)
  | blacklist {json : Json} : HasKind .list json → AllowedInEntry "blacklist" json
  | exceptions {json : Json} : HasKind .list json → AllowedInEntry "exceptions" json
  | browserVersion (json : Json) : AllowedInEntry "browser_version" json

instance : DecidablePred AllAllowed := fun members =>
  decidable_of_iff _ (hasUnknown_sharedKeys_iff members)

def allowedExceptions (members : Members) : List Members :=
  (((members.get? "exceptions" >>= Json.array?).getD []).filterMap Json.object?).filter
    (AllAllowed ·)

def DropsException (members : Members) : Prop :=
  ∃ items exception, members.get? "exceptions" = some (.array items) ∧ .object exception ∈ items ∧
    ¬AllAllowed exception

/-! ### Criteria -/

theorem allowed_slot_iff {slot : Slot} {json : Json} :
    Allowed slot.key json ↔ HasKind (slotKind slot) json := by
  constructor
  · intro h
    generalize hkey : slot.key = key at h
    cases h with
    | description => exact absurd hkey (slot_key_ne slot)
    | bugs list => exact absurd hkey (slot_key_ne_list_key slot list)
    | criterion other hkind =>
      cases Slot.key_injective hkey
      exact hkind
  · exact .criterion slot

theorem allowedInEntry_slot_iff {slot : Slot} {json : Json} :
    AllowedInEntry slot.key json ↔ HasKind (slotKind slot) json := by
  rw [← allowed_slot_iff]
  constructor
  · intro h
    generalize hkey : slot.key = key at h
    cases h with
    | shared hallowed =>
      subst hkey
      exact hallowed
    | _ => exact absurd hkey (by cases slot <;> decide)
  · exact .shared

/-! ### Counting -/

def entryReads (members : Members) : List String :=
  "id" :: "blacklist" :: (knownIf "browser_version" (members.get? "browser_version") ++
    knownIf "disabled" (members.get? "disabled" >>= Json.bool?) ++
    knownIf "exceptions" (members.get? "exceptions" >>= Json.array?) ++ sharedKeys members)

theorem knownIf_sublist {α : Type} (key : String) (value : Option α) :
    (knownIf key value).Sublist [key] := by
  unfold knownIf
  split
  · exact List.Sublist.refl _
  · exact List.nil_sublist _

theorem sharedKeys_sublist (members : Members) : (sharedKeys members).Sublist exceptionTable := by
  have hslots : (Fields.read members).recognised.Sublist (Slot.all.map Slot.key) :=
    List.filter_sublist.map Slot.key
  exact (((knownIf_sublist _ _).append (knownIf_sublist _ _)).append (knownIf_sublist _ _)).append
    hslots

theorem entryReads_sublist (members : Members) :
    (entryReads members).Sublist (entryTable ++ exceptionTable) := by
  have hoptional := ((knownIf_sublist "browser_version" (members.get? "browser_version")).append
    (knownIf_sublist "disabled" (members.get? "disabled" >>= Json.bool?))).append
    (knownIf_sublist "exceptions" (members.get? "exceptions" >>= Json.array?))
  exact .cons_cons "id" (.cons_cons "blacklist" (hoptional.append (sharedKeys_sublist members)))

theorem length_eq_iff_of_subset {reads keys : List String} (hreads : reads.Nodup)
    (hkeys : keys.Nodup) (hsubset : reads ⊆ keys) : reads.length = keys.length ↔ keys ⊆ reads := by
  have hfewer := List.subperm_of_subset hreads hsubset
  constructor
  · intro hlength
    exact (hfewer.perm_of_length_le (Nat.le_of_eq hlength.symm)).symm.subset
  · intro hback
    have hmore := List.subperm_of_subset hkeys hback
    exact Nat.le_antisymm hfewer.length_le hmore.length_le

/-- The number of reads gives away whether there is an unknown key. -/
theorem length_reads_iff {members : Members} {reads : List String} {known : String → Json → Prop}
    (hdistinct : (members.map Prod.fst).Nodup) (hreads : reads.Nodup)
    (hknown : ∀ key, key ∈ reads ↔ ∃ json, members.get? key = some json ∧ known key json) :
    reads.length = members.length ↔
      ∀ key json, members.get? key = some json → known key json := by
  have hsubset : reads ⊆ members.map Prod.fst := by
    intro key hmem
    obtain ⟨json, hget, -⟩ := (hknown key).mp hmem
    exact mem_keys_iff.mpr ⟨json, hget⟩
  rw [← List.length_map Prod.fst, length_eq_iff_of_subset hreads hdistinct hsubset]
  simp only [List.subset_def, mem_keys_iff, forall_exists_index]
  apply forall₃_congr
  intro key json hget
  simp only [hknown, hget, Option.some.injEq, exists_eq_left']

theorem isSome_bool?_iff {json : Json} : json.bool?.isSome ↔ ∃ value, json = .bool value := by
  cases json <;> simp [Json.bool?]

section Entry

variable {members : Members} {id : Nat} {items : List Json}

/-- The key that the list of entries reads itself is known, so it counts where there is one. -/
theorem mem_entryKeys_iff {key : String} {json : Json} (hget : members.get? key = some json) :
    key ∈ entryKeys members ↔ key ∈ entryReads members := by
  have hbrowser : key = "browser_version" ↔
      key ∈ knownIf "browser_version" (members.get? "browser_version") := by
    rw [mem_knownIf]
    constructor
    · rintro rfl
      exact ⟨rfl, by rw [hget]; rfl⟩
    · exact And.left
  simp only [entryKeys, entryReads, List.cons_append, List.mem_cons, List.mem_append, hbrowser,
    or_assoc]

theorem mem_entryReads_iff (hid : members.get? "id" = some (.integer id))
    (hlist : members.get? "blacklist" = some (.array items)) {key : String} :
    key ∈ entryReads members ↔ ∃ json, members.get? key = some json ∧ AllowedInEntry key json := by
  simp only [entryReads, List.mem_cons, List.mem_append, mem_knownIf, mem_sharedKeys_iff,
    isSome_bind_iff, ← hasKind_list, isSome_bool?_iff]
  constructor
  · rintro (rfl | rfl | ((⟨rfl, hsome⟩ | ⟨rfl, json, hget, value, rfl⟩) | ⟨rfl, json, hget, hkind⟩) |
      ⟨json, hget, hallowed⟩)
    · exact ⟨_, hid, .id (Int.natCast_nonneg id)⟩
    · exact ⟨_, hlist, .blacklist trivial⟩
    · obtain ⟨json, hget⟩ := Option.isSome_iff_exists.mp hsome
      exact ⟨json, hget, .browserVersion json⟩
    · exact ⟨_, hget, .disabled value⟩
    · exact ⟨json, hget, .exceptions hkind⟩
    · exact ⟨json, hget, .shared hallowed⟩
  · rintro ⟨json, hget, hallowed⟩
    cases hallowed with
    | shared hallowed => exact .inr (.inr (.inr ⟨json, hget, hallowed⟩))
    | id => exact .inl rfl
    | disabled value => exact .inr (.inr (.inl (.inl (.inr ⟨rfl, _, hget, value, rfl⟩))))
    | blacklist => exact .inr (.inl rfl)
    | exceptions hkind => exact .inr (.inr (.inl (.inr ⟨rfl, json, hget, hkind⟩)))
    | browserVersion => exact .inr (.inr (.inl (.inl (.inl ⟨rfl, by rw [hget]; rfl⟩))))

theorem hasUnknown_entryKeys_iff (hid : members.get? "id" = some (.integer id))
    (hlist : members.get? "blacklist" = some (.array items)) :
    hasUnknown (entryKeys members) members = false ↔
      ∀ key json, members.get? key = some json → AllowedInEntry key json := by
  rw [hasUnknown_eq_false_iff]
  apply forall₃_congr
  intro key json hget
  simp only [mem_entryKeys_iff hget, mem_entryReads_iff hid hlist, hget, Option.some.injEq,
    exists_eq_left']

end Entry

/-! ### Marks -/

theorem exception?_unknownFields {members : Members} {rule : Rule}
    (h : exception? members = some rule) : rule.unknownFields = false ↔ AllAllowed members := by
  obtain ⟨body, -, rfl⟩ := exception?_eq_some h
  exact hasUnknown_sharedKeys_iff members

section Exceptions

variable {items : List Json} {rules : List Rule}
  (hread : items.mapM (fun item => item.object? >>= exception?) = some rules)

include hread

theorem forall₂_kept :
    List.Forall₂ (fun exception kept => exception? exception = some kept)
      ((items.filterMap Json.object?).filter (AllAllowed ·))
      (rules.filter fun rule => !rule.unknownFields) := by
  rw [mapM_eq_some_iff] at hread
  induction hread with
  | nil => exact .nil
  | @cons item rule items rules hitem _ ih =>
    obtain ⟨exception, hobject, hexception⟩ := Option.bind_eq_some_iff.mp hitem
    have hmark := exception?_unknownFields hexception
    rw [List.filterMap_cons_some hobject]
    by_cases hallowed : AllAllowed exception
    · rw [List.filter_cons_of_pos (by simpa using hallowed),
        List.filter_cons_of_pos (by simpa using hmark.mpr hallowed)]
      exact .cons hexception ih
    · have hunknown : rule.unknownFields = true := by simpa using mt hmark.mp hallowed
      rw [List.filter_cons_of_neg (by simpa using hallowed),
        List.filter_cons_of_neg (by simp [hunknown])]
      exact ih

theorem any_unknownFields_iff :
    rules.any (·.unknownFields) ↔ ∃ exception, .object exception ∈ items ∧ ¬AllAllowed exception := by
  rw [List.any_eq_true]
  constructor
  · rintro ⟨rule, hmem, hunknown⟩
    obtain ⟨item, hitem, hrule⟩ := (mem_of_mapM_eq_some hread rule).mp hmem
    obtain ⟨exception, hobject, hexception⟩ := Option.bind_eq_some_iff.mp hrule
    rw [object?_eq_some_iff] at hobject
    subst hobject
    refine ⟨exception, hitem, fun hallowed => ?_⟩
    rw [(exception?_unknownFields hexception).mpr hallowed] at hunknown
    cases hunknown
  · rintro ⟨exception, hitem, hallowed⟩
    have hsome : (exception? exception).isSome :=
      isSome_mapM_iff.mp (Option.isSome_of_eq_some hread) _ hitem
    obtain ⟨rule, hexception⟩ := Option.isSome_iff_exists.mp hsome
    refine ⟨rule, (mem_of_mapM_eq_some hread rule).mpr ⟨_, hitem, hexception⟩, ?_⟩
    simpa using mt (exception?_unknownFields hexception).mp hallowed

end Exceptions

theorem dropsException_iff {members : Members} {exceptions : List Rule}
    (h : exceptions? members = some exceptions) :
    exceptions.any (·.unknownFields) ↔ DropsException members := by
  simp only [any_unknownFields_iff h, mem_exceptions_iff, DropsException]
  constructor
  · rintro ⟨exception, ⟨items, hget, hmem⟩, hallowed⟩
    exact ⟨items, exception, hget, hmem, hallowed⟩
  · rintro ⟨items, exception, hget, hmem, hallowed⟩
    exact ⟨exception, ⟨items, hget, hmem⟩, hallowed⟩

theorem mem_names_iff {members : Members} {names : List String}
    (h : blacklist? members = some names) :
    ∃ items, members.get? "blacklist" = some (.array items) ∧
      ∀ name, name ∈ names ↔ .string name ∈ items := by
  simp only [blacklist?, Option.bind_eq_bind, Option.bind_eq_some_iff, array?_eq_some_iff] at h
  obtain ⟨items, ⟨json, hget, rfl⟩, h⟩ := h
  refine ⟨items, hget, fun name => ?_⟩
  split at h
  · cases h
  · simp only [mem_of_mapM_eq_some h, string?_eq_some_iff, exists_eq_right]

structure ExceptionMarks (members : Members) (rule : Rule) : Prop where
  unknownFields : rule.unknownFields ↔ ¬AllAllowed members
  /-- Objects have distinct keys, so that it is enough to count the values that are read. -/
  counted : (members.map Prod.fst).Nodup →
    (rule.unknownFields ↔ (sharedKeys members).length ≠ members.length)
  /-- The kind alone decides, also for a criterion that cannot be built. -/
  slots : ∀ slot json, members.get? slot.key = some json →
    (slot.key ∈ sharedKeys members ↔ HasKind (slotKind slot) json)
  entryKeys : ∀ key ∈ entryTable, (members.get? key).isSome → rule.unknownFields

/-- What the marks of an entry say, and which exceptions it keeps. -/
structure EntryMarks (members : Members) (rule : Rule) : Prop where
  unknownFeatures : rule.unknownFeatures ↔
    ∃ items name, members.get? "blacklist" = some (.array items) ∧ .string name ∈ items ∧
      FeatureMask.ofName? name = none
  exceptions : List.Forall₂
    (fun exception kept => ∀ owner, (readException owner exception).outcome = .ok kept)
    (allowedExceptions members) rule.exceptions
  unknownFields : rule.unknownFields ↔
    (∃ key json, members.get? key = some json ∧ ¬AllowedInEntry key json) ∨ DropsException members
  counted : (members.map Prod.fst).Nodup →
    (rule.unknownFields ↔ (entryReads members).length ≠ members.length ∨ DropsException members)
  slots : ∀ slot json, members.get? slot.key = some json →
    (slot.key ∈ entryReads members ↔ HasKind (slotKind slot) json)

theorem exceptionMarks_of_exception? {members : Members} {rule : Rule}
    (h : exception? members = some rule) : ExceptionMarks members rule where
  unknownFields := by rw [← exception?_unknownFields h, Bool.not_eq_false]
  counted := by
    intro hdistinct
    have hreads := (sharedKeys_sublist members).nodup (List.nodup_append'.mp nodup_tables).2.1
    rw [ne_eq, length_reads_iff hdistinct hreads fun key => mem_sharedKeys_iff, ← AllAllowed,
      ← exception?_unknownFields h, Bool.not_eq_false]
  slots := by
    intro slot json hget
    simp only [mem_sharedKeys_iff, hget, Option.some.injEq, exists_eq_left', allowed_slot_iff]
  entryKeys := by
    intro key hmem hsome
    obtain ⟨json, hget⟩ := Option.isSome_iff_exists.mp hsome
    rw [← Bool.not_eq_false, exception?_unknownFields h]
    intro hallowed
    exact not_allowed_of_mem_entryTable hmem json (hallowed key json hget)

theorem entryMarks_of_rule? {members : Members} {rule : Rule} (h : rule? members = some rule) :
    EntryMarks members rule := by
  have hid := rule?_id h
  obtain ⟨id, body, names, exceptions, -, -, hnames, hexceptions, rfl⟩ := rule?_eq_some h
  obtain ⟨items, hlist, hmem⟩ := mem_names_iff hnames
  have hunknown : hasUnknown (entryKeys members) members ↔
      ∃ key json, members.get? key = some json ∧ ¬AllowedInEntry key json := by
    rw [← Bool.not_eq_false, hasUnknown_entryKeys_iff hid hlist]
    push Not
    rfl
  have hmark : (exceptions.any (·.unknownFields) || hasUnknown (entryKeys members) members) ↔
      (∃ key json, members.get? key = some json ∧ ¬AllowedInEntry key json) ∨
        DropsException members := by
    rw [Bool.or_eq_true, dropsException_iff hexceptions, hunknown, or_comm]
  refine ⟨?_, ?_, hmark, ?_, ?_⟩
  · simp only [List.any_eq_true, hmem, Option.isNone_iff_eq_none, hlist, Option.some.injEq,
      Json.array.injEq, exists_eq_left', exists_and_left]
  · apply (forall₂_kept hexceptions).imp
    intro exception kept hread owner
    rw [← Report.value?_eq_some_iff, value?_readException, hread]
  · intro hdistinct
    have hreads := (entryReads_sublist members).nodup nodup_tables
    rw [hmark, ne_eq, length_reads_iff hdistinct hreads fun key => mem_entryReads_iff hid hlist]
    push Not
    rfl
  · intro slot json hget
    simp only [mem_entryReads_iff hid hlist, hget, Option.some.injEq, exists_eq_left',
      allowedInEntry_slot_iff]

/-- Whatever entry or exception can be read, its marks are exact. -/
theorem unknown_marks_exact :
    (∀ index members rule, (readEntry index members).outcome = .ok rule → EntryMarks members rule) ∧
    ∀ owner members rule, (readException owner members).outcome = .ok rule →
      ExceptionMarks members rule := by
  constructor
  · intro index members rule h
    rw [← Report.value?_eq_some_iff, value?_readEntry] at h
    exact entryMarks_of_rule? h
  · intro owner members rule h
    rw [← Report.value?_eq_some_iff, value?_readException] at h
    exact exceptionMarks_of_exception? h

/-- An entry with a feature and a key that are unknown and a vendor that is no number. Its first
exception has a date that is none, and its second one a list of features. -/
def markedEntry : Members :=
  [("id", .integer 4),
   ("blacklist", .array [.string "webgl", .string "teleport"]),
   ("browser_version", .object []),
   ("vendor_id", .string "nvidia"),
   ("note", .null),
   ("exceptions", .array [
     .object [("driver_date", .object [("op", .string "<"), ("number", .string "2010")])],
     .object [("blacklist", .array [.string "webgl"])]])]

theorem unknown_marks_exact_markedEntry :
    (∃ rule, (readEntry 0 markedEntry).outcome = .ok rule ∧
      (rule.unknownFeatures ∧ rule.unknownFields ∧ rule.malformed = [.vendorId] ∧
        rule.exceptions.map (·.malformed) = [[.driverDate]]) ∧
      EntryMarks markedEntry rule) ∧
    ∃ rule, (readException 4 [("blacklist", .array [.string "webgl"])]).outcome = .ok rule ∧
      ExceptionMarks [("blacklist", .array [.string "webgl"])] rule := by
  obtain ⟨hentry, hexception⟩ := unknown_marks_exact
  constructor
  · have hread : (readEntry 0 markedEntry).outcome.toOption.map (fun rule =>
        (rule.unknownFeatures, rule.unknownFields, rule.malformed,
          rule.exceptions.map (·.malformed))) =
        some (true, true, [.vendorId], [[.driverDate]]) := by decide +kernel
    obtain ⟨rule, hrule, hparts⟩ := Option.map_eq_some_iff.mp hread
    rw [Report.toOption_eq_some_iff] at hrule
    simp only [Prod.mk.injEq] at hparts
    exact ⟨rule, hrule, hparts, hentry _ _ _ hrule⟩
  · have hread : (readException 4 [("blacklist", .array [.string "webgl"])]).outcome.isOk := by
      decide +kernel
    obtain ⟨rule, hrule⟩ := Report.isOk_iff.mp hread
    exact ⟨rule, hrule, hexception _ _ _ hrule⟩

end GpuRules.Config
