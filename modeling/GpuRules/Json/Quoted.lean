import GpuRules.Text.Digits

/-!
JSON strings. Written, a string escapes quotation marks, backslashes and the characters below
U+0020, and nothing else. Read, it may hold any escape of the grammar; a character beyond U+FFFF may
be escaped as a surrogate pair, and a surrogate without its partner is refused.
-/

namespace GpuRules.Json.Quoted

open Text (isHexDigit numeral)

/-- A character as it stands, or an escaped UTF-16 code unit. -/
inductive Piece where
  | plain (char : Char)
  | unit (code : Nat)

def unescape? : Char → Option Char
  | '"' => some '"'
  | '\\' => some '\\'
  | '/' => some '/'
  | 'b' => some '\x08'
  | 'f' => some '\x0c'
  | 'n' => some '\n'
  | 'r' => some '\r'
  | 't' => some '\t'
  | _ => none

def pieces? : List Char → Option (List Piece × List Char)
  | [] => none
  | '"' :: rest => some ([], rest)
  | '\\' :: 'u' :: a :: b :: c :: d :: rest =>
    if [a, b, c, d].all isHexDigit then
      (pieces? rest).map fun (more, left) => (.unit (numeral 16 [a, b, c, d]) :: more, left)
    else none
  | '\\' :: letter :: rest =>
    match unescape? letter with
    | some char => (pieces? rest).map fun (more, left) => (.plain char :: more, left)
    | none => none
  | char :: rest =>
    if char.toNat < 0x20 then none
    else (pieces? rest).map fun (more, left) => (.plain char :: more, left)

theorem length_of_pieces? {text left : List Char} {pieces : List Piece}
    (h : pieces? text = some (pieces, left)) : left.length < text.length := by
  fun_induction pieces? text generalizing pieces with
  | case1 => simp at h
  | case2 rest => simp_all
  | case3 a b c d rest _ ih =>
    obtain ⟨⟨more, rest'⟩, hmore, heq⟩ := Option.map_eq_some_iff.mp h
    obtain ⟨_, rfl⟩ := Prod.mk.inj heq
    have := ih hmore
    simp only [List.length_cons]
    omega
  | case4 => simp at h
  | case5 letter rest _ char _ ih =>
    obtain ⟨⟨more, rest'⟩, hmore, heq⟩ := Option.map_eq_some_iff.mp h
    obtain ⟨_, rfl⟩ := Prod.mk.inj heq
    have := ih hmore
    simp only [List.length_cons]
    omega
  | case6 => simp at h
  | case7 => simp at h
  | case8 char rest _ _ _ _ ih =>
    obtain ⟨⟨more, rest'⟩, hmore, heq⟩ := Option.map_eq_some_iff.mp h
    obtain ⟨_, rfl⟩ := Prod.mk.inj heq
    have := ih hmore
    simp only [List.length_cons]
    omega

def isLeading (code : Nat) : Bool := 0xD800 ≤ code && code < 0xDC00
def isTrailing (code : Nat) : Bool := 0xDC00 ≤ code && code < 0xE000

/-- Joins surrogate pairs. -/
def join? : List Piece → Option (List Char)
  | [] => some []
  | .plain char :: rest => (join? rest).map (char :: ·)
  | .unit high :: .unit low :: rest =>
    if isLeading high && isTrailing low then
      (join? rest).map (Char.ofNat (0x10000 + (high - 0xD800) * 0x400 + (low - 0xDC00)) :: ·)
    else if isLeading high || isTrailing high then none
    else (join? (.unit low :: rest)).map (Char.ofNat high :: ·)
  | .unit code :: rest =>
    if isLeading code || isTrailing code then none
    else (join? rest).map (Char.ofNat code :: ·)

def read? (text : List Char) : Option (String × List Char) :=
  match pieces? text with
  | none => none
  | some (pieces, left) => (join? pieces).map fun chars => (String.ofList chars, left)

theorem length_of_read? {text left : List Char} {string : String}
    (h : read? text = some (string, left)) : left.length < text.length := by
  unfold read? at h
  split at h
  · simp at h
  · next pieces rest hpieces =>
    obtain ⟨chars, _, heq⟩ := Option.map_eq_some_iff.mp h
    obtain ⟨_, rfl⟩ := Prod.mk.inj heq
    exact length_of_pieces? hpieces

def escape (char : Char) : List Char :=
  match char with
  | '"' => ['\\', '"']
  | '\\' => ['\\', '\\']
  | '\x08' => ['\\', 'b']
  | '\x0c' => ['\\', 'f']
  | '\n' => ['\\', 'n']
  | '\r' => ['\\', 'r']
  | '\t' => ['\\', 't']
  | _ =>
    if char.toNat < 0x20 then
      ['\\', 'u', '0', '0', Nat.digitChar (char.toNat / 16), Nat.digitChar (char.toNat % 16)]
    else [char]

def write (text : String) : List Char :=
  '"' :: text.toList.flatMap escape ++ ['"']

end GpuRules.Json.Quoted
