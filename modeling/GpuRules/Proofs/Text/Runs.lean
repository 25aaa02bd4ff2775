import GpuRules.Text.Digits
import Mathlib.Data.List.TakeWhile

/-! Runs at the front of a text: characters of one kind, as many as there are before one of another
kind. Everything that reads numbers takes such runs. -/

namespace GpuRules.Text

/-- The text is cut after the run of characters of the kind that it begins with, which may be
empty. -/
structure FrontRun (kind : Char → Bool) (text run rest : List Char) : Prop where
  joined : text = run ++ rest
  ofKind : ∀ c ∈ run, kind c
  stops : ∀ c ∈ rest.head?, kind c = false

variable {kind : Char → Bool} {text run rest : List Char}

theorem frontRun_iff :
    FrontRun kind text run rest ↔ run = text.takeWhile kind ∧ rest = text.dropWhile kind := by
  constructor
  · rintro ⟨rfl, hkind, hstops⟩
    have hrest : rest.takeWhile kind = [] ∧ rest.dropWhile kind = rest := by
      cases rest with
      | nil => exact ⟨rfl, rfl⟩
      | cons c rest => simp [hstops c rfl]
    rw [List.takeWhile_append_of_pos hkind, List.dropWhile_append_of_pos hkind, hrest.1, hrest.2,
      List.append_nil]
    exact ⟨rfl, rfl⟩
  · rintro ⟨rfl, rfl⟩
    refine ⟨List.takeWhile_append_dropWhile.symm, fun c => List.mem_takeWhile_imp, ?_⟩
    intro c hhead
    have hstop := List.head?_dropWhile_not kind text
    rw [Option.mem_def.mp hhead] at hstop
    exact hstop

theorem frontRun_takeWhile (kind : Char → Bool) (text : List Char) :
    FrontRun kind text (text.takeWhile kind) (text.dropWhile kind) :=
  frontRun_iff.mpr ⟨rfl, rfl⟩

structure LongestFront (kind : Char → Bool) (text run : List Char) : Prop where
  begins : run <+: text
  ofKind : ∀ c ∈ run, kind c
  longest : ∀ other, other <+: text → (∀ c ∈ other, kind c) → other.length ≤ run.length

theorem FrontRun.longestFront (h : FrontRun kind text run rest) : LongestFront kind text run where
  begins := ⟨rest, h.joined.symm⟩
  ofKind := h.ofKind
  longest := by
    rintro other ⟨after, hafter⟩ hkind
    obtain ⟨rfl, -⟩ := frontRun_iff.mp h
    rw [← hafter, List.takeWhile_append_of_pos hkind, List.length_append]
    exact Nat.le_add_right _ _

/-- Where a run could go on, it would not be the longest. -/
theorem LongestFront.frontRun (h : LongestFront kind text run) :
    ∃ rest, FrontRun kind text run rest := by
  obtain ⟨⟨rest, rfl⟩, hkind, hlongest⟩ := h
  refine ⟨rest, rfl, hkind, ?_⟩
  intro c hhead
  obtain ⟨after, rfl⟩ := List.head?_eq_some_iff.mp hhead
  rw [← Bool.not_eq_true]
  intro hc
  have hlonger : ∀ d ∈ run ++ [c], kind d :=
    List.forall_mem_append.mpr ⟨hkind, List.forall_mem_singleton.mpr hc⟩
  have hlength := hlongest (run ++ [c]) ⟨after, by simp⟩ hlonger
  rw [List.length_append, List.length_singleton] at hlength
  omega

theorem longestFront_iff : LongestFront kind text run ↔ run = text.takeWhile kind := by
  constructor
  · intro h
    obtain ⟨rest, hrun⟩ := h.frontRun
    exact (frontRun_iff.mp hrun).1
  · rintro rfl
    exact (frontRun_takeWhile kind text).longestFront

theorem takeWhile_append_of_stops (hstops : ∀ c ∈ rest.head?, kind c = false) (text : List Char) :
    (text ++ rest).takeWhile kind = text.takeWhile kind := by
  have hrun : FrontRun kind rest [] rest := ⟨rfl, by simp, hstops⟩
  have hrest : rest.takeWhile kind = [] := (frontRun_iff.mp hrun).1.symm
  rw [List.takeWhile_append, hrest, List.append_nil]
  split
  · next hlength => exact ((List.takeWhile_prefix kind).eq_of_length hlength).symm
  · rfl

end GpuRules.Text
