import GpuRules.ParseError
import GpuRules.Text.Digits
import GpuRules.Version

/-!
Readers of versions: dotted text, driver dates, operating system releases, and the lexical
spelling, in which every digit after the dot is a component.
-/

namespace GpuRules.Version

open Text (numeral)

def component? (text : List Char) : Option (UInt16 × List Char) :=
  let run := text.takeWhile Char.isDigit
  if run = [] ∨ UInt16.size ≤ numeral 10 run then none
  else some (UInt16.ofNat (numeral 10 run), text.dropWhile Char.isDigit)

theorem length_of_component? {text rest : List Char} {component : UInt16}
    (h : component? text = some (component, rest)) : rest.length < text.length := by
  simp only [component?, Option.ite_none_left_eq_some, not_or, Option.some.injEq,
    Prod.mk.injEq] at h
  obtain ⟨⟨hrun, _⟩, _, rfl⟩ := h
  have hsplit := congrArg List.length
    (List.takeWhile_append_dropWhile (p := Char.isDigit) (l := text))
  have hpos := List.length_pos_iff.mpr hrun
  rw [List.length_append] at hsplit
  omega

/-- Components that follow, each after a single dot, for as long as they are good ones. A dot
that no good component follows stays in the text that is left. -/
def moreComponents (text : List Char) : List UInt16 × List Char :=
  match text with
  | '.' :: after =>
    match h : component? after with
    | none => ([], '.' :: after)
    | some (component, rest) =>
      have := length_of_component? h
      let (more, left) := moreComponents rest
      (component :: more, left)
  | _ => ([], text)
termination_by text.length

def refusal (text : List Char) : ParseError.Reason :=
  if text.takeWhile Char.isDigit = [] then .missing 0 .versionComponent
  else .tooLarge 0 .versionComponent

def read (text : List Char) : Except ParseError.Reason Version :=
  match component? text with
  | none => .error (refusal text)
  | some (first, rest) =>
    match moreComponents rest with
    | (more, []) => .ok ⟨first :: more⟩
    | (_, left) => .error (.trailing (text.length - left.length))

def parse (text : String) : Except ParseError Version :=
  (read text.toList).mapError (ParseError.mk text)

/-- A driver date `mm-dd-yyyy`, as the version `yyyy.mm.dd`, whose order is the order in time. -/
def ofDate (date : String) : Except ParseError Version :=
  match date.toList.splitOn '-' with
  | [month, day, year] =>
    (read (year ++ '.' :: month ++ '.' :: day)).mapError fun _ => ⟨date, .notADate⟩
  | _ => .error ⟨date, .notADate⟩

def ofRelease? (release : String) : Option Version :=
  (read (release.toList.takeWhile fun c => c.isDigit || c == '.')).toOption

def spreadDigits (text : List Char) : List Char :=
  match text.dropWhile (· ≠ '.') with
  | _ :: digits =>
    if digits ≠ [] ∧ digits.all Char.isDigit then
      text.takeWhile (· ≠ '.') ++ digits.flatMap fun digit => ['.', digit]
    else text
  | [] => text

/-- The dotted spelling of a lexical version: `8.103` stands for `8.1.0.3`. -/
def ofLexical (text : String) : String :=
  String.ofList (spreadDigits text.toList)

end GpuRules.Version
