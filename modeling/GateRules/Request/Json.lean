import GateRules.Json.Record
import GateRules.Json.Write
import GateRules.Request

/-!
# Requests in JSON

A request is an object with the condition `OR` and the list of its rules; each rule is an object with the condition `AND`
and the list of its expressions; an expression is an object of three strings. The rules of a request and the expressions
of a rule may be missing, and the rules may also be `null`. Members that are none of these are passed over.
-/

namespace GateRules

/-- What was read of a term. -/
structure Term.Partial where
  field : Option String
  operator : Option String
  value : Option String

/-- A term in JSON. -/
def Term.shape : Json.Shape Term.Partial Term where
  name := "WireExpression"
  isClosed := false
  fields := [
    ⟨"field", false, fun p => p.field.isSome, fun p => Json.string.map fun text => { p with field := some text }⟩,
    ⟨"operator", false, fun p => p.operator.isSome,
      fun p => Json.string.map fun text => { p with operator := some text }⟩,
    ⟨"value", false, fun p => p.value.isSome, fun p => Json.string.map fun text => { p with value := some text }⟩]
  start := ⟨none, none, none⟩
  finish p := do
    let field ← Json.required "field" p.field
    let operator ← Json.required "operator" p.operator
    let value ← Json.required "value" p.value
    return ⟨field, operator, value⟩

/-- The reader of a term. -/
def Term.decoder : Json.Decoder Term := Json.record Term.shape

/-- What was read of an AND-group. -/
structure Draft.PartialGroup where
  condition : Option Unit
  terms : Option (List Term)

/-- An AND-group in JSON. -/
def Draft.groupShape : Json.Shape Draft.PartialGroup (List Term) where
  name := "AndRule"
  isClosed := false
  fields := [
    ⟨"condition", false, fun p => p.condition.isSome,
      fun p => (Json.word [("AND", ())]).map fun word => { p with condition := some word }⟩,
    ⟨"expressions", true, fun p => p.terms.isSome,
      fun p => (Json.list Term.decoder).map fun terms => { p with terms := some terms }⟩]
  start := ⟨none, none⟩
  finish p := do
    let _ ← Json.required "condition" p.condition
    return p.terms.getD []

/-- The reader of an AND-group. -/
def Draft.groupDecoder : Json.Decoder (List Term) := Json.record Draft.groupShape

/-- What was read of a request. -/
structure Request.Partial where
  condition : Option Unit
  rules : Option (Option Draft)

/-- A request in JSON. -/
def Request.shape : Json.Shape Request.Partial Request where
  name := "OrRule"
  isClosed := false
  fields := [
    ⟨"condition", false, fun p => p.condition.isSome,
      fun p => (Json.word [("OR", ())]).map fun word => { p with condition := some word }⟩,
    ⟨"rules", true, fun p => p.rules.isSome,
      fun p => (Json.orNull (Json.list Draft.groupDecoder)).map fun rules => { p with rules := some rules }⟩]
  start := ⟨none, none⟩
  finish p := do
    let _ ← Json.required "condition" p.condition
    return ⟨p.rules.getD none⟩

/-- The reader of a request. -/
def Request.decoder : Json.Decoder Request := Json.record Request.shape

/-- The request that a text holds. -/
def Request.ofJson (text : String) : Except Json.Fault Request := Json.readAll Request.decoder text

/-- A term in JSON. -/
def Term.encode (term : Term) : List Char :=
  Json.writeObject [
    ("field", Json.writeString term.field.toList),
    ("operator", Json.writeString term.operator.toList),
    ("value", Json.writeString term.value.toList)]

/-- An AND-group in JSON. -/
def Draft.encodeGroup (terms : List Term) : List Char :=
  Json.writeObject [
    ("condition", Json.writeString ['A', 'N', 'D']),
    ("expressions", Json.writeList (terms.map Term.encode))]

/-- A request in JSON; absent rules are left out. -/
def Request.encode (request : Request) : List Char :=
  Json.writeObject <|
    ("condition", Json.writeString ['O', 'R']) ::
      match request.rules with
      | none => []
      | some draft => [("rules", Json.writeList (draft.map Draft.encodeGroup))]

/-- The text of a request in JSON. -/
def Request.toJson (request : Request) : String := String.ofList request.encode

/-- The text of a rule in JSON; nothing for the unconditional rule. -/
def Rule.toJson? (rule : Rule) : Option String := rule.request?.map Request.toJson

end GateRules
