import Handoff.Json.Number
import Handoff.Text.Quoted

/-!
# What can be wrong with a JSON text

Either the text is malformed, or its data do not fit what is expected.  `Error.message` words the
cause.
-/

namespace Handoff.Json

/-- What stands where something else is expected. -/
inductive Found
  | null
  | bool (b : Bool)
  | number (n : Number)
  | text (s : String)
  | sequence
  | map
deriving DecidableEq, Repr

/-- Why a JSON text cannot be read as a value of some type. -/
inductive Error
  /-- The text is not JSON, or not JSON that can be represented. -/
  | malformed
  /-- A value of another type stands in place of the expected one. -/
  | mismatch (found : Found) (expected : String)
  /-- An integer lies outside the expected range. -/
  | outOfRange (value : Int) (expected : String)
  | missingField (name : String)
  | duplicateField (name : String)
  | unknownField (name : String) (expected : List String)
  | unknownVariant (name : String) (expected : List String)
  /-- A record written as an array ends after `length` elements. -/
  | tooShort (length : Nat) (expected : String)
  /-- An entry names a counterpart user without a counterpart task, or the other way round. -/
  | partialLink (task : String)
deriving DecidableEq, Repr

/-- The kind of thing found, and its value if it is a scalar. -/
def Found.describe : Found → String
  | .null => "null"
  | .bool b => "boolean `" ++ (if b then "true" else "false") ++ "`"
  | .number (.integer i) => "integer `" ++ toString i ++ "`"
  | .number (.real negative magnitude) => "floating point `" ++ realText negative magnitude ++ "`"
  | .text s => "string " ++ Text.quoted s
  | .sequence => "sequence"
  | .map => "map"

/-- Names in backquotes, with commas between them. -/
def listNames (names : List String) : String :=
  ", ".intercalate (names.map fun name => "`" ++ name ++ "`")

def Error.message : Error → String
  | .malformed => "syntax"
  | .mismatch found expected => "invalid type: " ++ found.describe ++ ", expected " ++ expected
  | .outOfRange value expected =>
    "invalid value: " ++ (Found.number (.integer value)).describe ++ ", expected " ++ expected
  | .missingField name => "missing field `" ++ name ++ "`"
  | .duplicateField name => "duplicate field `" ++ name ++ "`"
  | .unknownField name expected =>
    "unknown field `" ++ name ++ "`, expected one of " ++ listNames expected
  | .unknownVariant name expected =>
    "unknown variant `" ++ name ++ "`, expected one of " ++ listNames expected
  | .tooShort length expected =>
    "invalid length " ++ toString length ++ ", expected " ++ expected
  | .partialLink task => "reference " ++ task ++ " has a partial foreign link"

end Handoff.Json
