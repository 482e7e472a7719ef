import GateRules.Config
import GateRules.Json.Record

/-!
# Configurations in JSON

Every record of a configuration is closed: a member that is none of its fields is refused. What a configuration does not
say is empty or false.
-/

namespace GateRules

/-- The tokens of the operators. -/
def Operator.words : List (String × Operator) := Operator.all.map fun operator => (operator.token, operator)

/-- The tokens of the flows. -/
def Flow.words : List (String × Flow) := Flow.all.map fun flow => (flow.token, flow)

/-- The tokens of the actions. -/
def Action.words : List (String × Action) := Action.all.map fun action => (action.token, action)

/-- What was read of a field and its operators. -/
structure Entry.Partial where
  name : Option String
  operators : Option (List Operator)

/-- A field and its operators in JSON. -/
def Entry.shape : Json.Shape Entry.Partial Entry where
  name := "FieldConfig"
  isClosed := true
  fields := [
    ⟨"name", false, fun p => p.name.isSome, fun p => Json.string.map fun name => { p with name := some name }⟩,
    ⟨"operators", false, fun p => p.operators.isSome,
      fun p => (Json.list (Json.word Operator.words)).map fun operators => { p with operators := some operators }⟩]
  start := ⟨none, none⟩
  finish p := do
    let name ← Json.required "name" p.name
    let operators ← Json.required "operators" p.operators
    return ⟨name, operators⟩

/-- What was read of the fields of a flow. -/
structure FlowEntry.Partial where
  flow : Option Flow
  fields : Option (List Entry)

/-- The fields of a flow in JSON. -/
def FlowEntry.shape : Json.Shape FlowEntry.Partial FlowEntry where
  name := "FlowConfig"
  isClosed := true
  fields := [
    ⟨"flow", false, fun p => p.flow.isSome,
      fun p => (Json.word Flow.words).map fun flow => { p with flow := some flow }⟩,
    ⟨"fields", true, fun p => p.fields.isSome,
      fun p => (Json.list (Json.record Entry.shape)).map fun fields => { p with fields := some fields }⟩]
  start := ⟨none, none⟩
  finish p := do
    let flow ← Json.required "flow" p.flow
    return ⟨flow, p.fields.getD []⟩

/-- What was read of a tenant. -/
structure TenantEntry.Partial where
  isDown : Option Bool
  fields : Option (List Entry)
  flows : Option (List FlowEntry)

/-- A tenant in JSON. -/
def TenantEntry.shape : Json.Shape TenantEntry.Partial TenantEntry where
  name := "TenantConfig"
  isClosed := true
  fields := [
    ⟨"unavailable", true, fun p => p.isDown.isSome,
      fun p => Json.boolean.map fun isDown => { p with isDown := some isDown }⟩,
    ⟨"fields", true, fun p => p.fields.isSome,
      fun p => (Json.list (Json.record Entry.shape)).map fun fields => { p with fields := some fields }⟩,
    ⟨"flows", true, fun p => p.flows.isSome,
      fun p => (Json.list (Json.record FlowEntry.shape)).map fun flows => { p with flows := some flows }⟩]
  start := ⟨none, none, none⟩
  finish p := return ⟨p.isDown.getD false, p.fields.getD [], p.flows.getD []⟩

/-- What was read of a configuration. -/
structure Config.Partial where
  flows : Option (List FlowEntry)
  tenants : Option Tenants

/-- A configuration in JSON. -/
def Config.shape : Json.Shape Config.Partial Config where
  name := "RegistryConfig"
  isClosed := true
  fields := [
    ⟨"flows", true, fun p => p.flows.isSome,
      fun p => (Json.list (Json.record FlowEntry.shape)).map fun flows => { p with flows := some flows }⟩,
    ⟨"tenants", true, fun p => p.tenants.isSome,
      fun p => (Json.map (Json.record TenantEntry.shape)).map fun tenants =>
        { p with tenants := some (Tenants.ofList tenants) }⟩]
  start := ⟨none, none⟩
  finish p := return ⟨p.flows.getD [], p.tenants.getD .empty⟩

/-- The configuration that a text holds. -/
def Config.ofJson (text : String) : Except Json.Fault Config := Json.readAll (Json.record Config.shape) text

/-- The flow that a text in JSON names. -/
def Flow.ofJson (text : String) : Except Json.Fault Flow := Json.readAll (Json.word Flow.words) text

/-- The operator that a text in JSON names. -/
def Operator.ofJson (text : String) : Except Json.Fault Operator := Json.readAll (Json.word Operator.words) text

/-- The action that a text in JSON names. -/
def Action.ofJson (text : String) : Except Json.Fault Action := Json.readAll (Json.word Action.words) text

end GateRules
