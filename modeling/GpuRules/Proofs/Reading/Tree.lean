import GpuRules.Config.Load
import GpuRules.Proofs.Reading.Entry

/-! What whole configurations are read as: the rules of the entries that are for the browser, in
order, as long as no two of them have one id. -/

namespace GpuRules.Config

open Json (Members)

/-- The rule of an item, which is none if the item is an entry for other browsers. -/
def item? (browser : Version) (json : Json) : Option (Option Rule) := do
  let members ← json.object?
  let supported ← (supports browser members).toOption
  if supported then (rule? members).map some else some none

def rules? (browser : Version) (items : List Json) : Option (List Rule) :=
  (items.mapM (item? browser)).map (List.filterMap id)

def supported (browser : Version) (items : List Json) : List Members :=
  (items.filterMap Json.object?).filter fun members =>
    (supports browser members).toOption = some true

def schema? (tree : Json) : Option SchemaVersion := do
  let root ← tree.object?
  let text ← root.get? "version" >>= Json.string?
  (schemaVersion text).toOption

def entries? (tree : Json) : Option (List Json) := do
  let root ← tree.object?
  root.get? "entries" >>= Json.array?

theorem value?_readItem (browser : Version) (index : Nat) (json : Json) :
    (readItem browser index json).value? = item? browser json := by
  unfold readItem item?
  simp only [Report.value?_bind, Report.value?_require, Report.value?_ofExcept,
    Report.toOption_mapError]
  cases json.object? with
  | none => rfl
  | some members =>
    simp only [Option.bind_some, Option.bind_eq_bind]
    cases (supports browser members).toOption with
    | none => rfl
    | some supported =>
      cases supported with
      | false => rfl
      | true =>
        simp only [Option.bind_some, ↓reduceIte, Report.value?_bind, value?_readEntry]
        cases rule? members <;> rfl

theorem rules?_cons (browser : Version) (json : Json) (items : List Json) :
    rules? browser (json :: items) =
      (item? browser json).bind fun rule =>
        (rules? browser items).map fun rules => rule.elim rules (· :: rules) := by
  unfold rules?
  rw [List.mapM_cons]
  cases item? browser json with
  | none => rfl
  | some rule =>
    cases items.mapM (item? browser) with
    | none => rfl
    | some read => cases rule <;> simp

theorem supported_cons {browser : Version} {members : Members} {isFor : Bool}
    (h : supports browser members = .ok isFor) (items : List Json) :
    supported browser (.object members :: items) =
      if isFor then members :: supported browser items else supported browser items := by
  have hobject : (Json.object members).object? = some members := rfl
  unfold supported
  rw [List.filterMap_cons_some hobject]
  cases isFor with
  | false => rw [List.filter_cons_of_neg (by simp [h, Except.toOption]), if_neg (by decide)]
  | true => rw [List.filter_cons_of_pos (by simp [h, Except.toOption]), if_pos rfl]

theorem forall₂_supported {browser : Version} {items : List Json} {rules : List Rule}
    (h : rules? browser items = some rules) :
    List.Forall₂ (fun members rule => rule? members = some rule) (supported browser items) rules := by
  induction items generalizing rules with
  | nil =>
    obtain rfl : [] = rules := by simpa [rules?] using h
    exact .nil
  | cons json items ih =>
    rw [rules?_cons] at h
    obtain ⟨rule, hrule, h⟩ := Option.bind_eq_some_iff.mp h
    obtain ⟨rest, hrest, rfl⟩ := Option.map_eq_some_iff.mp h
    simp only [item?, Option.bind_eq_bind, Option.bind_eq_some_iff, object?_eq_some_iff,
      Report.toOption_eq_some_iff] at hrule
    obtain ⟨members, rfl, isFor, hsupports, hrule⟩ := hrule
    rw [supported_cons hsupports]
    cases isFor with
    | false =>
      obtain rfl : none = rule := by simpa using hrule
      exact ih hrest
    | true =>
      obtain ⟨read, hread, rfl⟩ := Option.map_eq_some_iff.mp hrule
      exact .cons hread (ih hrest)

theorem value?_readItems_eq_some_iff {browser : Version} {index : Nat} {seen : List UInt32}
    {items : List Json} {rules : List Rule} :
    (readItems browser index seen items).value? = some rules ↔
      rules? browser items = some rules ∧ (rules.map (·.id)).Nodup ∧
        ∀ rule ∈ rules, rule.id ∉ seen := by
  induction items generalizing index seen rules with
  | nil =>
    simp only [readItems, Report.value?_pure, Option.some.injEq, rules?, List.mapM_nil,
      Option.pure_def, Option.map_some]
    constructor
    · rintro rfl
      simp
    · exact And.left
  | cons json items ih =>
    rw [readItems, Report.value?_bind, value?_readItem, rules?_cons]
    cases item? browser json with
    | none => simp
    | some rule =>
      cases rule with
      | none => simp [ih]
      | some rule =>
        simp only [Option.bind_some, Option.elim_some, Option.map_eq_some_iff]
        by_cases hseen : rule.id ∈ seen
        · rw [if_pos hseen, Report.value?_fail]
          constructor
          · rintro ⟨⟩
          · rintro ⟨⟨rest, _, rfl⟩, _, hnew⟩
            exact absurd hseen (hnew rule List.mem_cons_self)
        · rw [if_neg hseen]
          simp only [Report.value?_bind, Report.value?_pure, Option.bind_eq_some_iff, ih,
            Option.some.injEq]
          constructor
          · rintro ⟨rest, ⟨hread, hnodup, hnew⟩, rfl⟩
            refine ⟨⟨rest, hread, rfl⟩, ?_, ?_⟩
            · simp only [List.map_cons, List.nodup_cons, List.mem_map, not_exists, not_and]
              exact ⟨fun other hother heq => hnew other hother (by simp [heq]), hnodup⟩
            · intro other hother
              rcases List.mem_cons.mp hother with rfl | hother
              · exact hseen
              · exact fun h => hnew other hother (List.mem_cons_of_mem _ h)
          · rintro ⟨⟨rest, hread, rfl⟩, hnodup, hnew⟩
            rw [List.map_cons, List.nodup_cons] at hnodup
            refine ⟨rest, ⟨hread, hnodup.2, fun other hother hmem => ?_⟩, rfl⟩
            rcases List.mem_cons.mp hmem with heq | hmem
            · exact hnodup.1 (heq ▸ List.mem_map_of_mem hother)
            · exact hnew other (List.mem_cons_of_mem _ hother) hmem

theorem outcome_ofTree_eq_ok_iff {options : LoadOptions} {tree : Json} {set : RuleSet} :
    (RuleSet.ofTree options tree).outcome = .ok set ↔
      ∃ version items browser rules,
        schema? tree = some version ∧ entries? tree = some items ∧
          Version.parse options.browserVersion = .ok browser ∧
          rules? browser items = some rules ∧ (rules.map (·.id)).Nodup ∧
          set = (RuleSet.ofRules version rules).restrict options.keeps := by
  rw [← Report.value?_eq_some_iff]
  unfold RuleSet.ofTree schema? entries?
  simp only [Report.value?_bind, Report.value?_require, Report.value?_ofExcept, Report.value?_pure,
    Report.toOption_mapError, Option.bind_eq_some_iff, value?_readItems_eq_some_iff,
    Option.bind_eq_bind, Report.toOption_eq_some_iff]
  constructor
  · rintro ⟨root, hroot, text, htext, version, hversion, items, hitems, browser, hbrowser,
      rules, ⟨hrules, hnodup, -⟩, hset⟩
    exact ⟨version, items, browser, rules, ⟨root, hroot, text, htext, hversion⟩,
      ⟨root, hroot, hitems⟩, hbrowser, hrules, hnodup, (Option.some.inj hset).symm⟩
  · rintro ⟨version, items, browser, rules, ⟨root, hroot, text, htext, hversion⟩,
      ⟨root', hroot', hitems⟩, hbrowser, hrules, hnodup, rfl⟩
    obtain rfl := Option.some.inj (hroot.symm.trans hroot')
    exact ⟨root, hroot, text, htext, version, hversion, items, hitems, browser, hbrowser,
      rules, ⟨hrules, hnodup, fun _ _ => List.not_mem_nil⟩, rfl⟩

end GpuRules.Config
