/-!
# Actions and flows

An action is a step of the platform that a rule may gate. Only some actions have a flow, the scope that decides which
fields and operators their rules may use; a rule for an action without a flow is not implemented.
-/

namespace GateRules

/-- The scope a rule belongs to, which selects its vocabulary. -/
inductive Flow where
  | preIssueAccessToken
deriving DecidableEq

/-- Every flow. -/
def Flow.all : List Flow := [.preIssueAccessToken]

/-- The token a flow is written as. -/
def Flow.token : Flow → String
  | .preIssueAccessToken => "preIssueAccessToken"

/-- The flow written as `text`, if there is one. -/
def Flow.ofToken? (text : String) : Option Flow :=
  Flow.all.find? fun flow => flow.token = text

/-- The list of flows has every flow in it. -/
theorem Flow.mem_all (flow : Flow) : flow ∈ Flow.all := by
  cases flow; decide

/-- A step of the platform that may be gated. -/
inductive Action where
  | preIssueAccessToken
  | preUpdatePassword
  | preUpdateProfile
  | preRegistration
  | authentication
deriving DecidableEq

/-- Every action. -/
def Action.all : List Action :=
  [.preIssueAccessToken, .preUpdatePassword, .preUpdateProfile, .preRegistration, .authentication]

/-- The token an action is written as. -/
def Action.token : Action → String
  | .preIssueAccessToken => "PRE_ISSUE_ACCESS_TOKEN"
  | .preUpdatePassword => "PRE_UPDATE_PASSWORD"
  | .preUpdateProfile => "PRE_UPDATE_PROFILE"
  | .preRegistration => "PRE_REGISTRATION"
  | .authentication => "AUTHENTICATION"

/-- The action written as `text`, if there is one. -/
def Action.ofToken? (text : String) : Option Action :=
  Action.all.find? fun action => action.token = text

/-- The flow that rules of this action belong to, for the actions that have one. -/
def Action.flow? : Action → Option Flow
  | .preIssueAccessToken => some .preIssueAccessToken
  | .preUpdatePassword | .preUpdateProfile | .preRegistration | .authentication => none

/-- Rules are implemented for one action only. -/
theorem Action.flow?_eq_none_iff {action : Action} : action.flow? = none ↔ action ≠ .preIssueAccessToken := by
  cases action <;> decide

/-- The one action with a flow has the flow of its name. -/
theorem Action.flow?_eq_some_iff {action : Action} {flow : Flow} :
    action.flow? = some flow ↔ action = .preIssueAccessToken ∧ flow = .preIssueAccessToken := by
  cases action <;> cases flow <;> decide

/-- An action is read back from its token. -/
theorem Action.ofToken?_token (action : Action) : Action.ofToken? action.token = some action := by
  cases action <;> decide

/-- A token names only the action that is written as it. -/
theorem Action.token_of_ofToken? {text : String} {action : Action} (h : Action.ofToken? text = some action) :
    action.token = text := by
  simpa using List.find?_some h

end GateRules
