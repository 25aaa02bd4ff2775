import GpuRules.RuleSet

/-!
Settings of a load.
-/

namespace GpuRules

inductive OsFilter where
  | all | currentOs
  deriving DecidableEq, Repr

structure LoadOptions where
  browserVersion : String := "0"
  filter : OsFilter := .currentOs
  platform : OsType := .current
  deriving DecidableEq, Repr

namespace LoadOptions

/-- Rules for any system are kept, and rules for the platform. A rule that cannot tell is not. -/
def keeps (options : LoadOptions) (rule : Rule) : Bool :=
  match options.filter with
  | .all => true
  | .currentOs =>
    match rule.os? with
    | some os => os == .any || os == options.platform
    | none => false

end LoadOptions

end GpuRules
