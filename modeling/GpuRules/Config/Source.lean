import GpuRules.Config.Load

/-!
Rule sets from configuration texts and files.
-/

namespace GpuRules

inductive SourceError where
  /-- There is no such file, or it holds no text. -/
  | unreadable
  | notJson
  | load (error : LoadError)
  deriving DecidableEq, Repr

namespace RuleSet

open Config (Report)

def ofText (options : LoadOptions) (text : String) : Report SourceError RuleSet :=
  match Json.read? Json.depthLimit text with
  | some tree => (ofTree options tree).mapError .load
  | none => .fail .notJson

/-- The rule set of a file with the given contents, which are nothing if it does not exist. -/
def ofFile (options : LoadOptions) (contents : Option ByteArray) : Report SourceError RuleSet :=
  match contents.bind String.fromUTF8? with
  | some text => ofText options text
  | none => .fail .unreadable

end RuleSet

end GpuRules
