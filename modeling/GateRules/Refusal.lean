import GateRules.Json.Fault
import GateRules.Notation.Read
import GateRules.Registry

/-!
# Refusals

Why a rule is not admitted, and whose fault that is: the client's, who should not ask again without a change; nobody's,
if rules for the action are not implemented; or the server's, when asking again is safe.
-/

namespace GateRules

/-- Why a rule is not admitted. -/
inductive Refusal where
  /-- The rule has a defect. -/
  | invalid (defect : Defect)
  /-- The text is no rule notation. -/
  | misread (misread : Notation.Misread)
  /-- The text is no request in JSON. -/
  | malformed (fault : Json.Fault)
  /-- There are no rules for this action. -/
  | notImplemented (action : String)
  /-- No vocabulary can be had for the rule. -/
  | noVocabulary (fault : RegistryFault)
deriving DecidableEq

/-- Whose fault a refusal is. -/
inductive Refusal.Kind where
  | client
  | notImplemented
  | server
deriving DecidableEq

/-- Whose fault a refusal is. -/
def Refusal.kind : Refusal → Kind
  | .invalid _ | .misread _ | .malformed _ => .client
  | .notImplemented _ => .notImplemented
  | .noVocabulary _ => .server

/-- The message about a text that is no request. -/
def Json.Fault.message : Fault → String
  | .ended => "the text ends too early"
  | .garbled => "the text is not JSON"
  | .misfit what => what.message

/-- The message of a refusal. -/
def Refusal.message : Refusal → String
  | .invalid defect => "invalid rule: " ++ defect.message
  | .misread what => what.message
  | .malformed fault => "malformed rule payload: " ++ fault.message
  | .notImplemented action => "conditional rules are not implemented for action type '" ++ action ++ "'"
  | .noVocabulary fault => "failed to initialize rule builder: " ++ fault.message

/-- The messages of what lies under a refusal, outermost first. -/
def Refusal.causes : Refusal → List String
  | .invalid defect => (defect :: defect.causes).map Defect.message
  | .noVocabulary fault => [fault.message]
  | .misread _ | .malformed _ | .notImplemented _ => []

/-- The action written as `text`; an unknown action is one for which rules are not implemented. -/
def Action.ofToken (text : String) : Except Refusal Action :=
  match Action.ofToken? text with
  | some action => .ok action
  | none => .error (.notImplemented text)

/-- The flow of an action, for which rules must be implemented. -/
def Action.flow (action : Action) : Except Refusal Flow :=
  match action.flow? with
  | some flow => .ok flow
  | none => .error (.notImplemented action.token)

end GateRules
