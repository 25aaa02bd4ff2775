import GpuRules.Proofs.Text.Runs
import GpuRules.Version.Reader

/-! The texts that spell versions: runs of digits joined by single dots. The reader takes exactly
those, and what it reads are the numbers that the runs spell, in order. -/

namespace GpuRules.Version

open Text (frontRun_iff frontRun_takeWhile numeral)

/-- A run of digits, leading zeros and all, that spells a component. -/
structure SpellsComponent (run : List Char) (component : UInt16) : Prop where
  nonempty : run ≠ []
  digits : ∀ c ∈ run, c.isDigit
  value : numeral 10 run = component.toNat

inductive Spells : List Char → List UInt16 → Prop
  | last {run : List Char} {component : UInt16} :
    SpellsComponent run component → Spells run [component]
  | more {run text : List Char} {component : UInt16} {components : List UInt16} :
    SpellsComponent run component → Spells text components →
      Spells (run ++ '.' :: text) (component :: components)

theorem SpellsComponent.notMem {run : List Char} {component : UInt16} {c : Char}
    (h : SpellsComponent run component) (hc : c.isDigit = false) : c ∉ run := by
  intro hmem
  rw [h.digits c hmem] at hc
  cases hc

theorem Spells.ne_nil {text : List Char} {components : List UInt16} (h : Spells text components) :
    components ≠ [] := by
  cases h <;> exact List.cons_ne_nil _ _

theorem Spells.notMem {text : List Char} {components : List UInt16} {c : Char}
    (h : Spells text components) (hdigit : c.isDigit = false) (hdot : c ≠ '.') : c ∉ text := by
  induction h with
  | last hrun => exact hrun.notMem hdigit
  | more hrun _ ih =>
    rw [List.mem_append, List.mem_cons, not_or, not_or]
    exact ⟨hrun.notMem hdigit, hdot, ih⟩

def isVersionChar (c : Char) : Bool := c.isDigit || c == '.'

theorem Spells.isVersionChar {text : List Char} {components : List UInt16}
    (h : Spells text components) : ∀ c ∈ text, isVersionChar c := by
  intro c hmem
  rw [← Bool.not_eq_false]
  intro hforeign
  rw [Version.isVersionChar, Bool.or_eq_false_iff, beq_eq_false_iff_ne] at hforeign
  exact h.notMem hforeign.1 hforeign.2 hmem

theorem spells_singleton_iff {text : List Char} {component : UInt16} :
    Spells text [component] ↔ SpellsComponent text component := by
  constructor
  · intro h
    cases h with
    | last hrun => exact hrun
    | more _ hrest => exact absurd rfl hrest.ne_nil
  · exact .last

theorem Spells.dot_notMem_iff {text : List Char} {components : List UInt16}
    (h : Spells text components) : '.' ∉ text ↔ ∃ component, components = [component] := by
  cases h with
  | last hrun => simp [hrun.notMem (c := '.') (by decide)]
  | more hrun hrest => simp [hrest.ne_nil]

theorem first_dot {run text left right : List Char} (hrun : '.' ∉ run)
    (h : left ++ '.' :: right = run ++ '.' :: text) :
    (left = run ∧ right = text) ∨
      ∃ rest, left = run ++ '.' :: rest ∧ text = rest ++ '.' :: right := by
  rcases List.append_eq_append_iff.mp h with ⟨between, rfl, hright⟩ | ⟨between, rfl, hright⟩
  · cases between with
    | nil => exact .inl ⟨(List.append_nil left).symm, (List.cons.inj hright).2⟩
    | cons c between =>
      obtain ⟨rfl, -⟩ := List.cons.inj hright
      simp at hrun
  · cases between with
    | nil => exact .inl ⟨List.append_nil run, (List.cons.inj hright).2.symm⟩
    | cons c between =>
      obtain ⟨rfl, htext⟩ := List.cons.inj hright
      exact .inr ⟨between, rfl, htext⟩

/-- A dot is never inside a run, so a text that is spelled is spelled on both sides of each dot. -/
theorem spells_append_iff {left right : List Char} {components : List UInt16} :
    Spells (left ++ '.' :: right) components ↔
      ∃ before after, Spells left before ∧ Spells right after ∧ components = before ++ after := by
  constructor
  · intro h
    generalize htext : left ++ '.' :: right = text at h
    induction h generalizing left with
    | last hrun => exact absurd (by simp [← htext]) (hrun.notMem (c := '.') (by decide))
    | more hrun hrest ih =>
      rcases first_dot (hrun.notMem (by decide)) htext with ⟨rfl, rfl⟩ | ⟨rest, rfl, rfl⟩
      · exact ⟨_, _, .last hrun, hrest, rfl⟩
      · obtain ⟨before, after, hbefore, hafter, rfl⟩ := ih rfl
        exact ⟨_, after, .more hrun hbefore, hafter, rfl⟩
  · rintro ⟨before, after, hleft, hright, rfl⟩
    induction hleft with
    | last hrun => exact .more hrun hright
    | more hrun _ ih =>
      rw [List.append_assoc, List.cons_append]
      exact .more hrun ih

/-! ### The reader -/

theorem component?_eq_some_iff {text rest : List Char} {component : UInt16} :
    component? text = some (component, rest) ↔
      ∃ run, SpellsComponent run component ∧ text = run ++ rest ∧
        ∀ c ∈ rest.head?, c.isDigit = false := by
  simp only [component?, Option.ite_none_left_eq_some, not_or, Nat.not_le, Option.some.injEq,
    Prod.mk.injEq]
  constructor
  · rintro ⟨⟨hrun, hsmall⟩, rfl, rfl⟩
    obtain ⟨hjoined, hdigits, hstops⟩ := frontRun_takeWhile Char.isDigit text
    exact ⟨_, ⟨hrun, hdigits, (UInt16.toNat_ofNat_of_lt' hsmall).symm⟩, hjoined, hstops⟩
  · rintro ⟨run, hrun, htext, hrest⟩
    obtain ⟨rfl, rfl⟩ := frontRun_iff.mp ⟨htext, hrun.digits, hrest⟩
    rw [hrun.value, UInt16.ofNat_toNat]
    exact ⟨⟨hrun.nonempty, component.toNat_lt_size⟩, rfl, rfl⟩

theorem SpellsComponent.read_last {run : List Char} {component : UInt16}
    (h : SpellsComponent run component) : component? run = some (component, []) :=
  component?_eq_some_iff.mpr ⟨run, h, (List.append_nil run).symm, by simp⟩

theorem SpellsComponent.read_dotted {run : List Char} {component : UInt16}
    (h : SpellsComponent run component) (text : List Char) :
    component? (run ++ '.' :: text) = some (component, '.' :: text) :=
  component?_eq_some_iff.mpr ⟨run, h, rfl, by simp⟩

@[simp] theorem moreComponents_nil : moreComponents [] = ([], []) := by
  rw [moreComponents]
  intro after h
  cases h

theorem moreComponents_dot (after : List Char) :
    moreComponents ('.' :: after) =
      match component? after with
      | none => ([], '.' :: after)
      | some (component, rest) =>
        (component :: (moreComponents rest).1, (moreComponents rest).2) := by
  rw [moreComponents]
  split <;> simp only [*]

theorem moreComponents_of_spells {text : List Char} {components : List UInt16}
    (h : Spells text components) : moreComponents ('.' :: text) = (components, []) := by
  induction h with
  | last hrun => simp only [moreComponents_dot, hrun.read_last, moreComponents_nil]
  | more hrun _ ih => simp only [moreComponents_dot, hrun.read_dotted, ih]

theorem spells_of_moreComponents {run rest left : List Char} {first : UInt16} {more : List UInt16}
    (hrun : SpellsComponent run first) (h : moreComponents rest = (more, left)) :
    ∃ taken, run ++ rest = taken ++ left ∧ Spells taken (first :: more) := by
  fun_induction moreComponents rest generalizing run first more with
  | case1 after hnone =>
    obtain ⟨rfl, rfl⟩ := Prod.mk.inj h
    exact ⟨run, rfl, .last hrun⟩
  | case2 after component rest hread _ more' left' hmore' ih =>
    obtain ⟨rfl, rfl⟩ := Prod.mk.inj h
    obtain ⟨run', hrun', rfl, -⟩ := component?_eq_some_iff.mp hread
    obtain ⟨taken, htaken, hspells⟩ := ih hrun' hmore'
    exact ⟨run ++ '.' :: taken, by rw [htaken, List.append_assoc, List.cons_append],
      .more hrun hspells⟩
  | case3 text hdot =>
    obtain ⟨rfl, rfl⟩ := Prod.mk.inj h
    exact ⟨run, rfl, .last hrun⟩

theorem read_eq_ok_iff {text : List Char} {components : List UInt16} :
    read text = .ok ⟨components⟩ ↔ Spells text components := by
  constructor
  · intro h
    unfold read at h
    split at h
    · cases h
    next first rest hread =>
      obtain ⟨run, hrun, rfl, -⟩ := component?_eq_some_iff.mp hread
      split at h
      next more hmore =>
        obtain rfl : first :: more = components := by simpa using h
        obtain ⟨taken, htaken, hspells⟩ := spells_of_moreComponents hrun hmore
        rwa [htaken, List.append_nil]
      · cases h
  · intro h
    unfold read
    cases h with
    | last hrun => simp only [hrun.read_last, moreComponents_nil]
    | more hrun hrest => simp only [hrun.read_dotted, moreComponents_of_spells hrest]

theorem parse_eq_ok_iff {text : String} {components : List UInt16} :
    parse text = .ok ⟨components⟩ ↔ Spells text.toList components := by
  rw [← read_eq_ok_iff, parse]
  cases read text.toList <;> simp [Except.mapError]

end GpuRules.Version
