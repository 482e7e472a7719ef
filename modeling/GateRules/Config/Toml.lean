import GateRules.Config
import GateRules.Toml.Document

/-!
# Configurations in TOML

A record of a configuration is a table that has no keys but its fields, or a list of the values of its fields in order.
An operator or a flow is a string, or a table whose only key is the token and whose value is empty. A registry is read
from a document, or from a file that holds one.
-/

namespace GateRules

/-- The text of a string. -/
def Toml.Value.text? : Value → Except Fault String
  | .text s => .ok s
  | _ => .error .misfit

/-- The value of a truth value. -/
def Toml.Value.boolean? : Value → Except Fault Bool
  | .boolean b => .ok b
  | _ => .error .misfit

/-- The items of a list, each read by `read`. -/
def Toml.Value.list? (read : Value → Except Fault α) : Value → Except Fault (List α)
  | .array _ items => items.mapM read
  | _ => .error .misfit

/-- The entries of a table, each value read by `read`. -/
def Toml.Value.map? (read : Value → Except Fault α) : Value → Except Fault (List (String × α))
  | .table _ entries => entries.mapM fun (key, value) => do return (key, ← read value)
  | _ => .error .misfit

/-- Whether a value is a table or a list with nothing in it. -/
def Toml.Value.isEmpty : Value → Bool
  | .table _ entries => entries.isEmpty
  | .array _ items => items.isEmpty
  | _ => false

/-- The word a value stands for. -/
def Toml.Value.word? (ofToken? : String → Option α) : Value → Except Fault α
  | .text token => (ofToken? token).elim (.error .misfit) .ok
  | .table _ [(token, value)] =>
    if value.isEmpty then (ofToken? token).elim (.error .misfit) .ok else .error .misfit
  | _ => .error .misfit

/-- The fields of a record, by name. -/
def Toml.Value.fields? (names : List String) : Value → Except Fault Entries
  | .table _ entries => if entries.all fun e => e.1 ∈ names then .ok entries else .error .misfit
  | .array _ items => .ok (names.zip items)
  | _ => .error .misfit

/-- A field that has to be there. -/
def Toml.Entries.required (entries : Entries) (name : String) (read : Value → Except Fault α) : Except Fault α :=
  match entries.get? name with
  | some value => read value
  | none => .error .misfit

/-- A field that may be missing. -/
def Toml.Entries.optional (entries : Entries) (name : String) (default : α) (read : Value → Except Fault α) :
    Except Fault α :=
  match entries.get? name with
  | some value => read value
  | none => .ok default

/-- The field and operators that a value describes. -/
def Entry.ofToml (value : Toml.Value) : Except Toml.Fault Entry := do
  let fields ← value.fields? ["name", "operators"]
  let name ← fields.required "name" Toml.Value.text?
  let operators ← fields.required "operators" (Toml.Value.list? (Toml.Value.word? Operator.ofToken?))
  return ⟨name, operators⟩

/-- The fields of a flow that a value describes. -/
def FlowEntry.ofToml (value : Toml.Value) : Except Toml.Fault FlowEntry := do
  let fields ← value.fields? ["flow", "fields"]
  let flow ← fields.required "flow" (Toml.Value.word? Flow.ofToken?)
  let entries ← fields.optional "fields" [] (Toml.Value.list? Entry.ofToml)
  return ⟨flow, entries⟩

/-- The tenant that a value describes. -/
def TenantEntry.ofToml (value : Toml.Value) : Except Toml.Fault TenantEntry := do
  let fields ← value.fields? ["unavailable", "fields", "flows"]
  let isDown ← fields.optional "unavailable" false Toml.Value.boolean?
  let entries ← fields.optional "fields" [] (Toml.Value.list? Entry.ofToml)
  let flows ← fields.optional "flows" [] (Toml.Value.list? FlowEntry.ofToml)
  return ⟨isDown, entries, flows⟩

/-- The configuration that a document describes. -/
def Config.ofToml (text : String) : Except Toml.Fault Config := do
  let fields ← (Toml.Value.table .header (← Toml.read text)).fields? ["flows", "tenants"]
  let flows ← fields.optional "flows" [] (Toml.Value.list? FlowEntry.ofToml)
  let tenants ← fields.optional "tenants" [] (Toml.Value.map? TenantEntry.ofToml)
  return ⟨flows, Tenants.ofList tenants⟩

/-- The registry that a document describes. -/
def Registry.ofToml (text : String) : Except RegistryFault Registry :=
  match Config.ofToml text with
  | .ok config => .ok (ofConfig config)
  | .error fault => .error (.config fault.message)

/-- The registry that a file describes, where `contents` is nothing if there is no such file. -/
def Registry.ofFile (contents : Option ByteArray) : Except RegistryFault Registry :=
  match contents with
  | none => .error (.file .notFound)
  | some bytes => match String.fromUTF8? bytes with
    | none => .error (.file .notText)
    | some text => ofToml text

end GateRules
