/-!
# TOML tables

The tree that a TOML document describes. A table remembers how it came to be, since that decides whether a later line may
add to it: a table with a header of its own and a table in braces are complete, a table that is only implied by a longer
header may still get a header, and a table made by dotted keys may get more of those.
-/

namespace GateRules

/-- How a table came to be. -/
inductive Toml.Origin where
  /-- By a header of its own. -/
  | header
  /-- By the header of a table inside it. -/
  | implied
  /-- By a dotted key. -/
  | dotted
  /-- As a value in braces. -/
  | inline
deriving DecidableEq

/-- A value of TOML. Numbers and times are told apart from other values but not from each other. -/
inductive Toml.Value where
  | text (value : String)
  | boolean (value : Bool)
  | numeric
  /-- A list; `isOpen` if it is one of tables that each have a header. -/
  | array (isOpen : Bool) (items : List Value)
  | table (origin : Origin) (entries : List (String × Value))

/-- Why a text is no TOML document, or not the one that was wanted. -/
inductive Toml.Fault where
  /-- The text is not TOML. -/
  | malformed
  /-- A key or a header adds to something that is complete. -/
  | redefined (key : String)
  /-- A value is not what was wanted. -/
  | misfit
deriving DecidableEq

/-- The message of a fault. -/
def Toml.Fault.message : Fault → String
  | .malformed => "the text is not TOML"
  | .redefined key => "the key '" ++ key ++ "' is already defined"
  | .misfit => "the text does not describe a registry"

/-- The entries of a table. -/
abbrev Toml.Entries := List (String × Value)

/-- The value of a key. -/
def Toml.Entries.get? (entries : Entries) (key : String) : Option Value :=
  (entries.find? fun e => e.1 = key).map Prod.snd

/-- The entries with another value for a key. -/
def Toml.Entries.put (entries : Entries) (key : String) (value : Value) : Entries :=
  if entries.any fun e => e.1 = key then entries.map fun e => if e.1 = key then (key, value) else e
  else entries ++ [(key, value)]

/-- Changes the table at a path, and makes the tables on the way that are not there. A list of tables stands for its
last one. By dotted keys no table with a header can be reached. -/
def Toml.descend (byDots : Bool) (path : List String) (change : Origin → Entries → Except Fault Entries)
    (origin : Origin) (entries : Entries) : Except Fault Entries :=
  match path with
  | [] => change origin entries
  | key :: path => match entries.get? key with
    | none => do
      let made := if byDots then Origin.dotted else .implied
      let inner ← descend byDots path change made []
      return entries.put key (.table made inner)
    | some (.table origin inner) =>
      if origin = .inline ∨ (byDots ∧ origin = .header) then throw (.redefined key)
      else do
        let inner ← descend byDots path change origin inner
        return entries.put key (.table origin inner)
    | some (.array true items) => match items.getLast? with
      | some (.table origin inner) => do
        let inner ← descend byDots path change origin inner
        return entries.put key (.array true (items.dropLast ++ [.table origin inner]))
      | _ => throw (.redefined key)
    | some _ => throw (.redefined key)

/-- Gives a dotted key a value. The table it goes to must have been made in the same way as the key is written. -/
def Toml.assign (path : List String) (value : Value) (origin : Origin) (entries : Entries) : Except Fault Entries :=
  let key := path.getLastD ""
  let above := path.dropLast
  descend true above
    (fun origin entries =>
      if (origin = .dotted) = (above ≠ []) ∧ (entries.get? key).isNone then .ok (entries.put key value)
      else .error (.redefined key))
    origin entries

/-- Starts the table of a header. -/
def Toml.openTable (path : List String) (root : Entries) : Except Fault Entries :=
  let key := path.getLastD ""
  descend false path.dropLast
    (fun _ entries => match entries.get? key with
      | none => .ok (entries.put key (.table .header []))
      | some (.table .implied inner) => .ok (entries.put key (.table .header inner))
      | some _ => .error (.redefined key))
    .header root

/-- Starts one more table of a list of tables. -/
def Toml.openItem (path : List String) (root : Entries) : Except Fault Entries :=
  let key := path.getLastD ""
  descend false path.dropLast
    (fun _ entries => match entries.get? key with
      | none => .ok (entries.put key (.array true [.table .header []]))
      | some (.array true items) => .ok (entries.put key (.array true (items ++ [.table .header []])))
      | some _ => .error (.redefined key))
    .header root

end GateRules
