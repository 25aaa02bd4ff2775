/-!
Texts compared without regard to the case of ASCII letters.
-/

namespace GpuRules.Text

/-- Every ASCII capital made small. No other character changes. -/
def foldCase (text : List Char) : List Char :=
  text.map Char.toLower

@[simp] theorem length_foldCase (text : List Char) : (foldCase text).length = text.length := by
  simp [foldCase]

def occursIn (piece : List Char) : List Char → Bool
  | [] => piece.isEmpty
  | c :: rest => piece.isPrefixOf (c :: rest) || occursIn piece rest

end GpuRules.Text
