import GpuRules.Proofs.Text.Numeral
import GpuRules.Proofs.Version.Grammar

/-! Versions read and written. A text is read as a version if it is cut by its dots into runs of
digits that each fit a component. What is read is written as the same runs without the zeros at
their front, and what is written is read as the very version that was written, zeros at the end and
all. -/

namespace GpuRules.Version

open Text (numeral stripZeros numeral_toDigits toDigits_numeral writtenDigit_of_isDigit)

/-- The text is runs of digits joined by single dots, and each run fits a component. -/
structure Dotted (text : List Char) (runs : List (List Char)) : Prop where
  nonempty : runs ≠ []
  joined : text = ['.'].intercalate runs
  fits : ∀ run ∈ runs, run ≠ [] ∧ (∀ c ∈ run, c.isDigit) ∧ numeral 10 run ≤ 65535

theorem spellsComponent_ofNat {run : List Char} (hne : run ≠ []) (hdigits : ∀ c ∈ run, c.isDigit)
    (hsmall : numeral 10 run ≤ 65535) : SpellsComponent run (UInt16.ofNat (numeral 10 run)) where
  nonempty := hne
  digits := hdigits
  value := (UInt16.toNat_ofNat_of_lt' (Nat.lt_succ_of_le hsmall)).symm

theorem SpellsComponent.fits {run : List Char} {component : UInt16}
    (h : SpellsComponent run component) :
    run ≠ [] ∧ (∀ c ∈ run, c.isDigit) ∧ numeral 10 run ≤ 65535 :=
  ⟨h.nonempty, h.digits, h.value ▸ Nat.le_of_lt_succ component.toNat_lt_size⟩

theorem Spells.exists_dotted {text : List Char} {components : List UInt16}
    (h : Spells text components) : ∃ runs, Dotted text runs := by
  induction h with
  | @last run component hrun =>
    refine ⟨[run], List.cons_ne_nil _ _, by simp, ?_⟩
    simpa using hrun.fits
  | @more run text component components hrun _ ih =>
    obtain ⟨runs, hdotted⟩ := ih
    refine ⟨run :: runs, List.cons_ne_nil _ _, ?_, ?_⟩
    · rw [List.intercalate_cons_of_ne_nil hdotted.nonempty, hdotted.joined, List.append_assoc]
      rfl
    · exact List.forall_mem_cons.mpr ⟨hrun.fits, hdotted.fits⟩

theorem Dotted.spells {text : List Char} {runs : List (List Char)} (h : Dotted text runs) :
    Spells text (runs.map fun run => UInt16.ofNat (numeral 10 run)) := by
  obtain ⟨hne, rfl, hfits⟩ := h
  induction runs with
  | nil => exact absurd rfl hne
  | cons run runs ih =>
    obtain ⟨⟨hrun, hdigits, hsmall⟩, hrest⟩ := List.forall_mem_cons.mp hfits
    have hspells := spellsComponent_ofNat hrun hdigits hsmall
    cases runs with
    | nil => simpa using Spells.last hspells
    | cons next runs =>
      rw [List.intercalate_cons_cons, List.append_assoc]
      exact .more hspells (ih (List.cons_ne_nil _ _) hrest)

theorem Dotted.values {text : List Char} {runs : List (List Char)} (h : Dotted text runs) :
    values ⟨runs.map fun run => UInt16.ofNat (numeral 10 run)⟩ = runs.map (numeral 10) := by
  rw [Version.values, List.map_map]
  apply List.map_congr_left
  intro run hmem
  exact UInt16.toNat_ofNat_of_lt' (Nat.lt_succ_of_le (h.fits run hmem).2.2)

/-! ### Written versions -/

theorem text_eq_of_values {version : Version} {text : List Char} {runs : List (List Char)}
    (h : Dotted text runs) (hvalues : version.values = runs.map (numeral 10)) :
    version.text = String.ofList (['.'].intercalate (runs.map stripZeros)) := by
  have hdigits : version.components.map (fun c => Nat.toDigits 10 c.toNat) =
      version.values.map (Nat.toDigits 10) := by
    rw [values, List.map_map]
    rfl
  have hruns : (runs.map (numeral 10)).map (Nat.toDigits 10) = runs.map stripZeros := by
    rw [List.map_map]
    apply List.map_congr_left
    intro run hmem
    obtain ⟨hne, hall, -⟩ := h.fits run hmem
    exact toDigits_numeral (by decide) hne fun c hmem => writtenDigit_of_isDigit (hall c hmem)
  rw [Version.text, hdigits, hvalues, hruns]

theorem spellsComponent_toDigits (component : UInt16) :
    SpellsComponent (Nat.toDigits 10 component.toNat) component where
  nonempty := Nat.toDigits_ne_nil
  digits := fun _ => Nat.isDigit_of_mem_toDigits (by decide) (by decide)
  value := numeral_toDigits (by decide) (by decide) component.toNat

theorem spells_text {version : Version} (h : version.components ≠ []) :
    Spells version.text.toList version.components := by
  obtain ⟨components⟩ := version
  rw [Version.text, String.toList_ofList]
  dsimp only at h ⊢
  induction components with
  | nil => exact absurd rfl h
  | cons component components ih =>
    have hspells := spellsComponent_toDigits component
    cases components with
    | nil => simpa using Spells.last hspells
    | cons next components =>
      rw [List.map_cons, List.map_cons, List.intercalate_cons_cons, List.append_assoc]
      exact .more hspells (ih (List.cons_ne_nil _ _))

/-- A text is read just if it is runs of digits with single dots between them, and it is read as the
numbers that the runs spell. Written again it has lost the zeros at the front of the runs. A version
that is written is read as it was, not only as an equal one. -/
theorem parse_inverts_text :
    (∀ text, (∃ version, parse text = .ok version) ↔ ∃ runs, Dotted text.toList runs) ∧
    (∀ text runs, Dotted text.toList runs →
      ∃ version, parse text = .ok version ∧ version.values = runs.map (numeral 10) ∧
        version.text = String.ofList (['.'].intercalate (runs.map stripZeros))) ∧
    ∀ version, version.components ≠ [] → parse version.text = .ok version := by
  have hread {text : String} {runs : List (List Char)} (h : Dotted text.toList runs) :=
    parse_eq_ok_iff.mpr h.spells
  refine ⟨fun text => ⟨?_, ?_⟩, ?_, ?_⟩
  · rintro ⟨⟨components⟩, hparse⟩
    exact (parse_eq_ok_iff.mp hparse).exists_dotted
  · rintro ⟨runs, hdotted⟩
    exact ⟨_, hread hdotted⟩
  · intro text runs hdotted
    exact ⟨_, hread hdotted, hdotted.values, text_eq_of_values hdotted hdotted.values⟩
  · rintro ⟨components⟩ hne
    exact parse_eq_ok_iff.mpr (spells_text hne)

/-- Zeros are lost at the front of a run but not at the end of a version. -/
theorem parse_inverts_text_paddedTen :
    Dotted "010.6.00".toList [['0', '1', '0'], ['6'], ['0', '0']] ∧
      (∃ version, parse "010.6.00" = .ok version ∧ version.values = [10, 6, 0] ∧
        version.text = "10.6.0") ∧
      parse (text ⟨[10, 0]⟩) = .ok ⟨[10, 0]⟩ := by
  obtain ⟨-, hread, hwritten⟩ := parse_inverts_text
  have hdotted : Dotted "010.6.00".toList [['0', '1', '0'], ['6'], ['0', '0']] := by
    refine ⟨by decide, by decide, ?_⟩
    simp only [List.forall_mem_cons, List.not_mem_nil, false_implies, implies_true]
    decide
  exact ⟨hdotted, hread "010.6.00" _ hdotted, hwritten ⟨[10, 0]⟩ (by decide)⟩

end GpuRules.Version
