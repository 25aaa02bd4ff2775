import GpuRules.Json.Number
import GpuRules.Json.Quoted

/-!
Reading JSON texts. The grammar is that of RFC 8259 to the letter; beyond it, arrays and objects may
be nested only so deep, and numbers must be in range.
-/

namespace GpuRules.Json

def isBlank (c : Char) : Bool :=
  c == ' ' || c == '\n' || c == '\t' || c == '\r'

def skipBlanks (text : List Char) : List Char :=
  text.dropWhile isBlank

theorem length_skipBlanks (text : List Char) : (skipBlanks text).length ≤ text.length :=
  (List.dropWhile_suffix isBlank).length_le

theorem length_of_skipBlanks {text rest : List Char} {c : Char} (h : skipBlanks text = c :: rest) :
    rest.length < text.length :=
  Nat.lt_of_lt_of_le (by simp [h]) (length_skipBlanks text)

def readScalar? (text : List Char) : Option (Json × List Char) :=
  match text with
  | 'n' :: 'u' :: 'l' :: 'l' :: rest => some (.null, rest)
  | 't' :: 'r' :: 'u' :: 'e' :: rest => some (.bool true, rest)
  | 'f' :: 'a' :: 'l' :: 's' :: 'e' :: rest => some (.bool false, rest)
  | '"' :: rest => (Quoted.read? rest).map fun (chars, left) => (.string chars, left)
  | _ => readNumber? text

theorem length_of_readScalar? {text left : List Char} {value : Json}
    (h : readScalar? text = some (value, left)) : left.length < text.length := by
  unfold readScalar? at h
  split at h
  case h_4 rest =>
    obtain ⟨⟨chars, left'⟩, hstring, heq⟩ := Option.map_eq_some_iff.mp h
    obtain ⟨_, rfl⟩ := Prod.mk.inj heq
    exact Nat.lt_succ_of_lt (Quoted.length_of_read? hstring)
  case h_5 => exact length_of_readNumber? h
  all_goals
    obtain ⟨_, rfl⟩ := Prod.mk.inj (Option.some.inj h)
    simp only [List.length_cons]
    omega

/-- What is left of a text when something has been read from its front. -/
abbrev Rest (text : List Char) := { rest : List Char // rest.length < text.length }

def Rest.widen {text inner : List Char} (rest : Rest inner) (h : inner.length < text.length) :
    Rest text :=
  ⟨rest, Nat.lt_trans rest.property h⟩

def readKey? (text : List Char) : Option (String × Rest text) :=
  match hquote : skipBlanks text with
  | '"' :: afterQuote =>
    match hkey : Quoted.read? afterQuote with
    | none => none
    | some (key, afterKey) =>
      match hcolon : skipBlanks afterKey with
      | ':' :: rest => some (key, ⟨rest, Nat.lt_trans (length_of_skipBlanks hcolon)
          (Nat.lt_trans (Quoted.length_of_read? hkey) (length_of_skipBlanks hquote))⟩)
      | _ => none
  | _ => none

mutual

/-- A value and the text after it. Up to `depth` arrays and objects may enclose one another. -/
def readValue? (depth : Nat) (text : List Char) : Option (Json × Rest text) :=
  match hopen : skipBlanks text with
  | '[' :: inside =>
    have hinside := length_of_skipBlanks hopen
    match depth with
    | 0 => none
    | depth + 1 =>
      match hclose : skipBlanks inside with
      | ']' :: rest => some (.array [], ⟨rest, Nat.lt_trans (length_of_skipBlanks hclose) hinside⟩)
      | _ => (readItems? depth inside).map fun (items, rest) => (.array items, rest.widen hinside)
  | '\x7b' :: inside =>
    have hinside := length_of_skipBlanks hopen
    match depth with
    | 0 => none
    | depth + 1 =>
      match hclose : skipBlanks inside with
      | '\x7d' :: rest =>
        some (.object [], ⟨rest, Nat.lt_trans (length_of_skipBlanks hclose) hinside⟩)
      | _ =>
        (readMembers? depth inside).map fun (members, rest) =>
          (.object (Members.ofWritten members), rest.widen hinside)
  | _ =>
    match hscalar : readScalar? (skipBlanks text) with
    | none => none
    | some (value, rest) => some (value, ⟨rest,
        Nat.lt_of_lt_of_le (length_of_readScalar? hscalar) (length_skipBlanks text)⟩)
termination_by (text.length, 0)

/-- The items of an array up to its end, of which there is at least one. -/
def readItems? (depth : Nat) (text : List Char) : Option (List Json × Rest text) :=
  match readValue? depth text with
  | none => none
  | some (item, ⟨afterItem, hitem⟩) =>
    match hnext : skipBlanks afterItem with
    | ',' :: next =>
      have hrest := Nat.lt_trans (length_of_skipBlanks hnext) hitem
      (readItems? depth next).map fun (items, rest) => (item :: items, rest.widen hrest)
    | ']' :: rest => some ([item], ⟨rest, Nat.lt_trans (length_of_skipBlanks hnext) hitem⟩)
    | _ => none
termination_by (text.length, 1)

def readMembers? (depth : Nat) (text : List Char) : Option (List (String × Json) × Rest text) :=
  match readKey? text with
  | none => none
  | some (key, ⟨afterKey, hkey⟩) =>
    match readValue? depth afterKey with
    | none => none
    | some (value, ⟨afterValue, hvalue⟩) =>
      match hnext : skipBlanks afterValue with
      | ',' :: next =>
        have hrest := Nat.lt_trans (length_of_skipBlanks hnext) (Nat.lt_trans hvalue hkey)
        (readMembers? depth next).map fun (members, rest) =>
          ((key, value) :: members, rest.widen hrest)
      | '\x7d' :: rest =>
        some ([(key, value)],
          ⟨rest, Nat.lt_trans (length_of_skipBlanks hnext) (Nat.lt_trans hvalue hkey)⟩)
      | _ => none
termination_by (text.length, 0)

end

def read? (depth : Nat) (text : String) : Option Json :=
  match readValue? depth text.toList with
  | some (value, ⟨rest, _⟩) => if skipBlanks rest = [] then some value else none
  | none => none

def depthLimit : Nat := 127

end GpuRules.Json
