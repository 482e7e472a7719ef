import GateRules.Text.Excerpt

/-!
# Faults of a JSON text

A text that should hold a value of some shape can fail in three ways: it ends too early, it is not JSON, or it is JSON of
another shape. Only the last has a message, which says what was found and what was wanted.
-/

namespace GateRules

/-- What stands in a text where something else was wanted. -/
inductive Json.Found where
  | null
  | map
  | sequence
  | boolean (value : Bool)
  | integer (value : Int)
  /-- A number that is no integer of 64 bits, as it is written out. -/
  | decimal (digits : String)
  | text (value : String)
deriving DecidableEq

/-- What a text should hold in some place. -/
inductive Json.Wanted where
  | string
  | boolean
  | sequence
  | map
  | unit
  | record (name : String)
deriving DecidableEq

/-- How a value differs in shape from what was wanted. -/
inductive Json.Misfit where
  /-- One type of value stands where another was wanted. -/
  | wrongType (found : Found) (wanted : Wanted)
  /-- A record written as a list ends after this many elements. -/
  | wrongLength (length : Nat) (record : String) (fields : Nat)
  /-- A record lacks a field. -/
  | missingField (name : String)
  /-- A record has a field twice. -/
  | duplicateField (name : String)
  /-- A record has a field that is none of its own. -/
  | unknownField (name : String) (known : List String)
  /-- A word is none of those that may stand in its place. -/
  | unknownVariant (name : String) (known : List String)
deriving DecidableEq

/-- Why a text is not read. -/
inductive Json.Fault where
  /-- The text ends too early. -/
  | ended
  /-- The text is not JSON. -/
  | garbled
  /-- The value has another shape than was wanted. -/
  | misfit (what : Misfit)
deriving DecidableEq

/-- The words for what was found. -/
def Json.Found.describe : Found → String
  | .null => "null"
  | .map => "map"
  | .sequence => "sequence"
  | .boolean value => "boolean `" ++ toString value ++ "`"
  | .integer value => "integer `" ++ toString value ++ "`"
  | .decimal digits => "floating point `" ++ digits ++ "`"
  | .text value => "string " ++ Text.excerpt value

/-- The words for what was wanted. -/
def Json.Wanted.describe : Wanted → String
  | .string => "a string"
  | .boolean => "a boolean"
  | .sequence => "a sequence"
  | .map => "a map"
  | .unit => "unit"
  | .record name => "struct " ++ name

/-- The words for a choice of names. -/
def Json.describeChoice (names : List String) : String :=
  match names.map fun name => "`" ++ name ++ "`" with
  | [a, b] => a ++ " or " ++ b
  | [a] => a
  | quoted => "one of " ++ ", ".intercalate quoted

/-- The message about a value of the wrong shape. -/
def Json.Misfit.message : Misfit → String
  | .wrongType found wanted => "invalid type: " ++ found.describe ++ ", expected " ++ wanted.describe
  | .wrongLength length record fields =>
    "invalid length " ++ toString length ++ ", expected struct " ++ record ++ " with " ++ toString fields ++ " elements"
  | .missingField name => "missing field `" ++ name ++ "`"
  | .duplicateField name => "duplicate field `" ++ name ++ "`"
  | .unknownField name known => "unknown field `" ++ name ++ "`, expected " ++ describeChoice known
  | .unknownVariant name known => "unknown variant `" ++ name ++ "`, expected " ++ describeChoice known

end GateRules
