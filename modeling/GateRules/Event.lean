import GateRules.Action

/-!
# Events

What happens on the way to a rule is told by events. A computation that tells of itself gives its events beside its
result, in order.
-/

namespace GateRules

/-- How much an event matters. -/
inductive Level where
  | debug
  | warn
deriving DecidableEq

/-- Something worth telling on the way to a rule. -/
inductive Event where
  /-- A request asks for no rule. -/
  | noRuleInRequest (action : Action) (tenant : String)
  /-- A text writes down no rule. -/
  | noRuleInNotation (action : Action) (tenant : String)
  /-- A builder was given a vocabulary of this many fields. -/
  | builderCreated (flow : Flow) (tenant : String) (fields : Nat)
  /-- A builder was given no vocabulary, for a reason in words. -/
  | builderFailed (error : String) (flow : Flow) (tenant : String)
  /-- A rule of this many groups and expressions was built. -/
  | ruleBuilt (flow : Flow) (tenant : String) (groups expressions : Nat)
deriving DecidableEq

/-- A value that an event carries. -/
inductive Event.Datum where
  | text (value : String)
  | count (value : Nat)
deriving DecidableEq

/-- How much an event matters: only a missing vocabulary is worth a warning. -/
def Event.level : Event → Level
  | .builderFailed .. => .warn
  | _ => .debug

/-- What an event says. -/
def Event.message : Event → String
  | .noRuleInRequest .. => "no rule in request"
  | .noRuleInNotation .. => "no rule in notation"
  | .builderCreated .. => "rule builder created"
  | .builderFailed .. => "failed to initialize rule builder"
  | .ruleBuilt .. => "rule built"

/-- The values an event carries, by name. -/
def Event.data : Event → List (String × Datum)
  | .noRuleInRequest action tenant | .noRuleInNotation action tenant =>
    [("action_type", .text action.token), ("tenant", .text tenant)]
  | .builderCreated flow tenant fields =>
    [("flow_type", .text flow.token), ("tenant", .text tenant), ("fields", .count fields)]
  | .builderFailed error flow tenant =>
    [("error", .text error), ("flow_type", .text flow.token), ("tenant", .text tenant)]
  | .ruleBuilt flow tenant groups expressions =>
    [("flow_type", .text flow.token), ("tenant", .text tenant), ("groups", .count groups),
      ("expressions", .count expressions)]

/-- A result and the events on the way to it. -/
structure Logged (α : Type) where
  result : α
  log : List Event
deriving DecidableEq

end GateRules
