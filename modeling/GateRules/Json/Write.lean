import GateRules.Json.Quoted

/-!
# Writing JSON

Objects and lists are written without white space, and the members of an object in the order they are given.
-/

namespace GateRules

/-- An object of members that are written already. -/
def Json.writeObject (members : List (String × List Char)) : List Char :=
  '\x7b' :: [','].intercalate (members.map fun (key, value) => writeString key.toList ++ ':' :: value) ++ ['\x7d']

/-- A list of elements that are written already. -/
def Json.writeList (elements : List (List Char)) : List Char :=
  '[' :: [','].intercalate elements ++ [']']

end GateRules
