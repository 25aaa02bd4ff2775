import GpuRules.Proofs.LargestId
import GpuRules.Proofs.Reading.Root
import GpuRules.Proofs.Reading.Tree
import GpuRules.Proofs.Reports.Place
import Mathlib.Data.List.Nodup

/-! Loading a list of entries that is made of two lists. Ids that were seen before only ever forbid
rules, so the second list is read as it would be alone, apart from where its entries stand, as long
as it brings no id that the first list brought. -/

namespace GpuRules

open Json (Members)

namespace Config

theorem readItems_of_subset {browser : Version} {index : Nat} {seen fewer : List UInt32}
    {items : List Json} {rules : List Rule} (hfewer : fewer ⊆ seen)
    (h : (readItems browser index seen items).value? = some rules) :
    readItems browser index fewer items = readItems browser index seen items := by
  induction items generalizing index seen fewer rules with
  | nil => rfl
  | cons json rest ih =>
    rw [readItems, Report.value?_bind, Option.bind_eq_some_iff] at h
    obtain ⟨read, hread, h⟩ := h
    unfold readItems
    apply Report.bind_congr
    intro rule? hrule
    obtain rfl := Option.some.inj (hread.symm.trans hrule)
    cases read with
    | none => exact ih hfewer h
    | some rule =>
      dsimp only at h ⊢
      have hnew : rule.id ∉ seen := by
        intro hseen
        rw [if_pos hseen] at h
        cases h
      -- An id that is new among more ids is new among fewer, and adding it keeps them fewer.
      have hsubset : rule.id :: fewer ⊆ rule.id :: seen := List.cons_subset_cons _ hfewer
      rw [if_neg hnew, Report.value?_bind, Option.bind_eq_some_iff] at h
      obtain ⟨more, hmore, -⟩ := h
      rw [if_neg hnew, if_neg fun hmem => hnew (hfewer hmem), ih hsubset hmore]

theorem readItems_append (browser : Version) (index : Nat) (seen : List UInt32)
    (left right : List Json) :
    readItems browser index seen (left ++ right) = (do
      let rules ← readItems browser index seen left
      let more ← readItems browser (index + left.length) ((rules.map (·.id)).reverse ++ seen) right
      return rules ++ more) := by
  induction left generalizing index seen with
  | nil =>
    rw [readItems, Report.pure_bind]
    exact (Report.bind_pure _).symm
  | cons json rest ih =>
    have hplace : index + 1 + rest.length = index + (json :: rest).length := by
      rw [List.length_cons]
      omega
    rw [List.cons_append, readItems, readItems, Report.bind_assoc]
    congr 1
    funext rule?
    cases rule? with
    | none =>
      rw [ih, hplace]
    | some rule =>
      dsimp only
      split
      · rfl
      · -- The ids of the first list stand in front of those before it, the latest first.
        rw [ih, hplace]
        simp only [Report.bind_assoc, Report.pure_bind, List.map_cons, List.reverse_cons,
          List.append_assoc, List.cons_append, List.nil_append]

theorem rules?_append (browser : Version) (left right : List Json) :
    rules? browser (left ++ right) =
      (rules? browser left).bind fun rules => (rules? browser right).map (rules ++ ·) := by
  unfold rules?
  rw [List.mapM_append]
  cases left.mapM (item? browser) with
  | none => rfl
  | some first =>
    cases right.mapM (item? browser) with
    | none => rfl
    | some second => simp

theorem value?_readItems_append_iff {browser : Version} {left right : List Json}
    {rules : List Rule} :
    (readItems browser 0 [] (left ++ right)).value? = some rules ↔
      ∃ before after, (readItems browser 0 [] left).value? = some before ∧
        (readItems browser 0 [] right).value? = some after ∧
        (before.map (·.id)).Disjoint (after.map (·.id)) ∧ rules = before ++ after := by
  simp only [value?_readItems_eq_some_iff, rules?_append, Option.bind_eq_some_iff,
    Option.map_eq_some_iff]
  constructor
  · rintro ⟨⟨before, hbefore, after, hafter, rfl⟩, hnodup, -⟩
    rw [List.map_append, List.nodup_append'] at hnodup
    obtain ⟨hfirst, hsecond, hdisjoint⟩ := hnodup
    exact ⟨before, after, ⟨hbefore, hfirst, by simp⟩, ⟨hafter, hsecond, by simp⟩, hdisjoint, rfl⟩
  · rintro ⟨before, after, ⟨hbefore, hfirst, -⟩, ⟨hafter, hsecond, -⟩, hdisjoint, rfl⟩
    refine ⟨⟨before, hbefore, after, hafter, rfl⟩, ?_, by simp⟩
    rw [List.map_append, List.nodup_append']
    exact ⟨hfirst, hsecond, hdisjoint⟩

theorem events_readItems_append {browser : Version} {left right : List Json} {rules : List Rule}
    (h : (readItems browser 0 [] (left ++ right)).value? = some rules) :
    (readItems browser 0 [] (left ++ right)).events =
      (readItems browser 0 [] left).events ++
        (readItems browser 0 [] right).events.map (Event.shift 0 left.length) := by
  rw [readItems_append, Nat.zero_add, Report.value?_bind, Option.bind_eq_some_iff] at h
  obtain ⟨before, hbefore, h⟩ := h
  rw [Report.value?_bind, Option.bind_eq_some_iff] at h
  obtain ⟨after, hafter, -⟩ := h
  -- The second list was read after the ids of the first, and would be read the same without them.
  have halone := readItems_of_subset (List.nil_subset _) hafter
  have hshift : (readItems browser 0 [] right).shift 0 left.length = _ :=
    shift_readItems_of_le (Nat.le_refl 0) browser [] right
  have hok := Report.value?_eq_some_iff.mp hbefore
  rw [Nat.zero_add] at hshift
  rw [readItems_append, Report.events_bind, hok, Nat.zero_add]
  simp only [Except.toOption, Option.map_some, Option.getD_some, Report.events_bind_pure]
  rw [← halone, ← hshift]
  rfl

theorem readItems_append_of_error {browser : Version} {left : List Json} {error : LoadError}
    (h : (readItems browser 0 [] left).outcome = .error error) (right : List Json) :
    readItems browser 0 [] (left ++ right) = ⟨(readItems browser 0 [] left).events, .error error⟩ := by
  rw [readItems_append, Report.bind_of_error h]

/-- An entry for other browsers only puts those after it one place further on. -/
theorem outcome_readItems_gated {browser : Version} {members : Members}
    (h : supports browser members = .ok false) (left right : List Json) :
    (readItems browser 0 [] (left ++ .object members :: right)).outcome =
      (readItems browser 0 [] (left ++ right)).outcome.mapError
        (LoadError.shift left.length 1) := by
  have hitem (index : Nat) : readItem browser index (.object members) =
      Report.note [.otherBrowser index browser] >>= fun _ => pure none := by
    have hmembers : Report.require (LoadError.entryNotObject index) (Json.object members).object? =
        pure members := rfl
    unfold readItem
    rw [hmembers, Report.pure_bind, h]
    rfl
  have hgated (seen : List UInt32) :
      (readItems browser left.length seen (.object members :: right)).outcome =
        ((readItems browser left.length seen right).shift left.length 1).outcome := by
    rw [shift_readItems_of_le (Nat.le_refl _), readItems, hitem]
    rfl
  change _ = ((readItems browser 0 [] (left ++ right)).shift left.length 1).outcome
  rw [readItems_append, readItems_append, Report.shift_bind,
    shift_readItems_of_lt (by omega), Nat.zero_add]
  simp only [Report.outcome_bind, Report.shift_bind, hgated]
  rfl

end Config

open Config

theorem RuleSet.restrict_ofRules_append (version : SchemaVersion) (keeps : Rule → Bool)
    (before after : List Rule) :
    let first := (ofRules version before).restrict keeps
    let second := (ofRules version after).restrict keeps
    (ofRules version (before ++ after)).restrict keeps =
      ⟨version, first.rules ++ second.rules, max first.maxId second.maxId,
        first.unknown || second.unknown⟩ := by
  intro first second
  have hmax := maxId_append version before after
  unfold restrict
  rw [hmax]
  simp only [first, second, restrict, ofRules, List.filter_append, List.any_append]

/-- The ids that a configuration brings, also those of rules for other platforms. -/
def loadedIds (options : LoadOptions) (tree : Json) : List UInt32 :=
  match (RuleSet.ofTree { options with filter := .all } tree).outcome with
  | .ok set => set.rules.map (·.id)
  | .error _ => []

section Entries

variable {options : LoadOptions} {browser : Version} {root : Members} {text : String}
  {version : SchemaVersion}
  (hbrowser : Version.parse options.browserVersion = .ok browser)
  (htext : root.get? "version" = some (.string text)) (hversion : schemaVersion text = .ok version)

include hbrowser htext hversion

theorem outcome_withEntries_eq_ok_iff {items : List Json} {set : RuleSet} :
    (RuleSet.ofTree options (withEntries root items)).outcome = .ok set ↔
      ∃ rules, (readItems browser 0 [] items).value? = some rules ∧
        (RuleSet.ofRules version rules).restrict options.keeps = set := by
  rw [ofTree_withEntries hbrowser htext hversion, ← Report.value?_eq_some_iff, Report.value?_bind,
    Option.bind_eq_some_iff]
  simp only [Report.value?_pure, Option.some.injEq]

theorem isOk_withEntries_iff (items : List Json) :
    (RuleSet.ofTree options (withEntries root items)).outcome.isOk ↔
      ∃ rules, (readItems browser 0 [] items).value? = some rules := by
  rw [Report.isOk_iff]
  simp only [outcome_withEntries_eq_ok_iff hbrowser htext hversion]
  constructor
  · rintro ⟨set, rules, hrules, -⟩
    exact ⟨rules, hrules⟩
  · rintro ⟨rules, hrules⟩
    exact ⟨_, rules, hrules, rfl⟩

theorem loadedIds_withEntries {items : List Json} {rules : List Rule}
    (h : (readItems browser 0 [] items).value? = some rules) :
    loadedIds options (withEntries root items) = rules.map (·.id) := by
  have hkeeps : LoadOptions.keeps { options with filter := .all } = fun _ => true := rfl
  have hall : (RuleSet.ofTree { options with filter := .all } (withEntries root items)).outcome =
      .ok (RuleSet.ofRules version rules) := by
    refine (outcome_withEntries_eq_ok_iff ?_ htext hversion).mpr ⟨rules, h, ?_⟩
    · exact hbrowser
    · simp [hkeeps, RuleSet.restrict, RuleSet.ofRules]
  unfold loadedIds
  rw [hall]
  rfl

theorem isOk_append_iff (left right : List Json) :
    (RuleSet.ofTree options (withEntries root (left ++ right))).outcome.isOk ↔
      (RuleSet.ofTree options (withEntries root left)).outcome.isOk ∧
        (RuleSet.ofTree options (withEntries root right)).outcome.isOk ∧
        (loadedIds options (withEntries root left)).Disjoint
          (loadedIds options (withEntries root right)) := by
  have hids {items : List Json} {rules : List Rule}
      (h : (readItems browser 0 [] items).value? = some rules) :=
    loadedIds_withEntries hbrowser htext hversion h
  simp only [isOk_withEntries_iff hbrowser htext hversion]
  constructor
  · rintro ⟨rules, hrules⟩
    obtain ⟨before, after, hbefore, hafter, hdisjoint, -⟩ := value?_readItems_append_iff.mp hrules
    rw [hids hbefore, hids hafter]
    exact ⟨⟨before, hbefore⟩, ⟨after, hafter⟩, hdisjoint⟩
  · rintro ⟨⟨before, hbefore⟩, ⟨after, hafter⟩, hdisjoint⟩
    rw [hids hbefore, hids hafter] at hdisjoint
    exact ⟨_, value?_readItems_append_iff.mpr ⟨before, after, hbefore, hafter, hdisjoint, rfl⟩⟩

theorem ofTree_append_of_error {left : List Json} {error : LoadError}
    (h : (RuleSet.ofTree options (withEntries root left)).outcome = .error error)
    (right : List Json) :
    RuleSet.ofTree options (withEntries root (left ++ right)) =
      RuleSet.ofTree options (withEntries root left) := by
  have hload := ofTree_withEntries hbrowser htext hversion
  have hread : (readItems browser 0 [] left).outcome = .error error := by
    rw [hload, Report.outcome_bind] at h
    cases houtcome : (readItems browser 0 [] left).outcome with
    | error other =>
      rw [houtcome] at h
      cases h
      rfl
    | ok rules =>
      rw [houtcome] at h
      cases h
  rw [hload, hload, readItems_append_of_error hread, Report.bind_of_error hread]
  rfl

/-- A load of two lists in a row comes from the loads of the two. -/
theorem ofTree_append (left right : List Json) :
    let load (items : List Json) := RuleSet.ofTree options (withEntries root items)
    let ids (items : List Json) := loadedIds options (withEntries root items)
    ((load (left ++ right)).outcome.isOk ↔
        (load left).outcome.isOk ∧ (load right).outcome.isOk ∧ (ids left).Disjoint (ids right)) ∧
      (∀ whole, (load (left ++ right)).outcome = .ok whole →
        ∃ first second, (load left).outcome = .ok first ∧ (load right).outcome = .ok second ∧
          whole = ⟨version, first.rules ++ second.rules, max first.maxId second.maxId,
            first.unknown || second.unknown⟩ ∧
          (load (left ++ right)).events =
            (load left).events ++ (load right).events.map (Event.shift 0 left.length)) ∧
      (∀ error, (load left).outcome = .error error → load (left ++ right) = load left) ∧
      ∀ members, supports browser members = .ok false →
        (load (left ++ .object members :: right)).outcome =
          (load (left ++ right)).outcome.mapError (LoadError.shift left.length 1) := by
  intro load ids
  have hok {items : List Json} {set : RuleSet} : (load items).outcome = .ok set ↔ _ :=
    outcome_withEntries_eq_ok_iff hbrowser htext hversion
  have hload (items : List Json) : load items = _ :=
    ofTree_withEntries hbrowser htext hversion items
  refine ⟨isOk_append_iff hbrowser htext hversion left right, ?_, ?_, ?_⟩
  · intro whole hwhole
    have hevents (items : List Json) :
        (load items).events = (readItems browser 0 [] items).events := by
      rw [hload items, Report.events_bind_pure]
    obtain ⟨rules, hrules, rfl⟩ := hok.mp hwhole
    have hlog := events_readItems_append hrules
    obtain ⟨before, after, hbefore, hafter, -, rfl⟩ := value?_readItems_append_iff.mp hrules
    rw [hevents, hevents, hevents]
    exact ⟨_, _, hok.mpr ⟨before, hbefore, rfl⟩, hok.mpr ⟨after, hafter, rfl⟩,
      RuleSet.restrict_ofRules_append version options.keeps before after, hlog⟩
  · intro error herror
    exact ofTree_append_of_error hbrowser htext hversion herror right
  · intro members hmembers
    rw [hload, hload, Report.outcome_bind, Report.outcome_bind, outcome_readItems_gated hmembers]
    cases (readItems browser 0 [] (left ++ right)).outcome <;> rfl

end Entries

def entrySince (browser : String) (id : Int) : Members :=
  [("blacklist", .array [.string "webgl"]),
    ("browser_version", .object [("number", .string browser), ("op", .string ">=")]),
    ("id", .integer id)]

theorem ofTree_append_entrySince :
    let load (items : List Json) :=
      RuleSet.ofTree { browserVersion := "20" } (withEntries [("version", .string "1.0")] items)
    let item (id : Int) : Json := .object (entrySince "9" id)
    (load ([item 1] ++ [item 2])).outcome.isOk ∧
      (load ([item 1] ++ .object (entrySince "30" 2) :: [item 2])).outcome =
        (load ([item 1] ++ [item 2])).outcome.mapError (LoadError.shift 1 1) := by
  intro load item
  have hbrowser : (Version.parse "20").toOption.map (·.components) = some [20] := by decide +kernel
  obtain ⟨⟨components⟩, hbrowser, rfl⟩ := Option.map_eq_some_iff.mp hbrowser
  have hversion : (schemaVersion "1.0").toOption = some ⟨1, 0⟩ := by decide +kernel
  have hgated : (supports ⟨[20]⟩ (entrySince "30" 2)).toOption = some false := by decide +kernel
  rw [Report.toOption_eq_some_iff] at hbrowser hversion hgated
  have happend := @ofTree_append { browserVersion := "20" } _ [("version", .string "1.0")] _ _
    hbrowser rfl hversion [item 1] [item 2]
  have hload : (load ([item 1] ++ [item 2])).outcome.isOk := by decide +kernel
  exact ⟨hload, happend.2.2.2 _ hgated⟩

end GpuRules
