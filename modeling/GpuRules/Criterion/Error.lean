import GpuRules.Json
import GpuRules.ParseError

/-!
Why a criterion could not be built.
-/

namespace GpuRules

inductive Json.Kind where
  | string | list | object
  deriving DecidableEq, Repr

def Json.Kind.noun : Json.Kind → String
  | .string => "a string"
  | .list => "a list"
  | .object => "an object"

inductive CriterionError where
  | unknownOperator (token : String)
  | unknownStyle (token : String)
  | unknownOs (token : String)
  | unknownMultiGpuStyle (token : String)
  | invalidNumber (text : String)
  | wrongType (field : String) (expected : Json.Kind)
  | malformed (error : ParseError)
  deriving DecidableEq, Repr

def CriterionError.message : CriterionError → String
  | .unknownOperator token => "unknown operator '" ++ token ++ "'"
  | .unknownStyle token => "unknown version style '" ++ token ++ "'"
  | .unknownOs token => "unknown os type '" ++ token ++ "'"
  | .unknownMultiGpuStyle token => "unknown multi_gpu_style '" ++ token ++ "'"
  | .invalidNumber text => "invalid number '" ++ text ++ "'"
  | .wrongType field expected => field ++ " must be " ++ expected.noun
  | .malformed error => error.message

end GpuRules
