/-!
Why a text was refused as a version, a date or an id, and the report that says so.
-/

namespace GpuRules

inductive Wanted where
  | versionComponent
  | hexId
  deriving DecidableEq, Repr

def Wanted.noun : Wanted → String
  | .versionComponent => "16-bit version component"
  | .hexId => "hex id"

/-- Offsets count the characters before the fault, all of which are ASCII. -/
inductive ParseError.Reason where
  | notADate
  /-- A well-formed beginning ends here, and something else follows. -/
  | trailing (offset : Nat)
  | missing (offset : Nat) (wanted : Wanted)
  | tooLarge (offset : Nat) (wanted : Wanted)
  deriving DecidableEq, Repr

structure ParseError where
  input : String
  reason : ParseError.Reason
  deriving DecidableEq, Repr

namespace ParseError

/-- The input with a caret below the fault. An input of several lines shows only its first,
which is where every fault lies. -/
def pointAt (input : String) (offset : Nat) (detail : String) : String :=
  let caret := String.ofList (List.replicate offset ' ') ++ "^\n"
  if '\n' ∈ input.toList then
    let line := String.ofList (input.toList.takeWhile (· ≠ '\n'))
    s!"parse error at line 1, column {offset + 1}\n  |\n1 | " ++ line ++ "\n  | " ++ caret ++ detail
  else
    input ++ "\n" ++ caret ++ detail

def Reason.report (input : String) : Reason → String
  | .notADate => "expected mm-dd-yyyy"
  | .trailing offset => pointAt input offset ""
  | .missing offset wanted => pointAt input offset ("expected " ++ wanted.noun)
  | .tooLarge offset wanted =>
      pointAt input offset
        ("expected " ++ wanted.noun ++ "\nnumber too large to fit in target type")

def message (error : ParseError) : String :=
  "parse error in '" ++ error.input ++ "': " ++ error.reason.report error.input

end ParseError

end GpuRules
