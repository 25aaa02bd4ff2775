import GpuRules.Binary

/-!
JSON trees. Whole numbers are kept apart from floating-point ones, because ids are whole.
-/

namespace GpuRules

inductive Json where
  | null
  | bool (value : Bool)
  | integer (value : Int)
  | number (value : Binary .double)
  | string (text : String)
  | array (items : List Json)
  | object (members : List (String × Json))
  deriving Inhabited

namespace Json

abbrev Members := List (String × Json)

def bool? : Json → Option Bool
  | .bool value => some value
  | _ => none

def integer? : Json → Option Int
  | .integer value => some value
  | _ => none

def string? : Json → Option String
  | .string text => some text
  | _ => none

def array? : Json → Option (List Json)
  | .array items => some items
  | _ => none

def object? : Json → Option Members
  | .object members => some members
  | _ => none

namespace Members

def get? (members : Members) (key : String) : Option Json :=
  members.lookup key

/-- Puts a member where its key belongs among ascending keys, in place of an earlier member of the
same key. -/
def insert (key : String) (value : Json) : Members → Members
  | [] => [(key, value)]
  | (other, old) :: rest =>
    if key < other then (key, value) :: (other, old) :: rest
    else if key = other then (key, value) :: rest
    else (other, old) :: insert key value rest

theorem get?_insert_self (members : Members) (key : String) (value : Json) :
    (members.insert key value).get? key = some value := by
  induction members with
  | nil => simp [insert, get?]
  | cons member rest ih =>
    obtain ⟨other, old⟩ := member
    unfold insert
    split
    · simp [get?]
    · split
      · simp [get?]
      · next hne =>
        have hother : (key == other) = false := by simpa using hne
        unfold get? at ih ⊢
        rw [List.lookup_cons, hother]
        exact ih

theorem get?_insert_of_ne (members : Members) {key other : String} (value : Json)
    (h : other ≠ key) : (members.insert key value).get? other = members.get? other := by
  have hother : (other == key) = false := by simpa using h
  induction members with
  | nil => simp [insert, get?, List.lookup_cons, hother]
  | cons member rest ih =>
    obtain ⟨first, old⟩ := member
    unfold insert
    split
    · simp [get?, List.lookup_cons, hother]
    · split
      · next heq =>
        subst heq
        simp [get?, List.lookup_cons, hother]
      · unfold get? at ih ⊢
        rw [List.lookup_cons, List.lookup_cons, ih]

/-- The members of a written object in ascending order of keys. Of several members with one key
the last one stays. -/
def ofWritten (written : Members) : Members :=
  written.foldl (fun members member => insert member.1 member.2 members) []

end Members

end Json

end GpuRules
