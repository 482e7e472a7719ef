import GateRules.Body

/-!
# Rules

What gates an action: nothing, or a body that belongs to one flow of one tenant. Having no rule is a state of its own,
never an empty body.
-/

namespace GateRules

/-- The condition attached to an action. -/
inductive Rule where
  /-- The action always fires. -/
  | unconditional
  /-- The action fires when the body holds. -/
  | conditional (body : Body) (flow : Flow) (tenant : String)
deriving DecidableEq

/-- The body of a conditional rule. -/
def Rule.body? : Rule → Option Body
  | .unconditional => none
  | .conditional body _ _ => some body

/-- The flow of a conditional rule. -/
def Rule.flow? : Rule → Option Flow
  | .unconditional => none
  | .conditional _ flow _ => some flow

/-- The tenant of a conditional rule. -/
def Rule.tenant? : Rule → Option String
  | .unconditional => none
  | .conditional _ _ tenant => some tenant

/-- Whether the rule has a body. -/
def Rule.isConditional (rule : Rule) : Bool := rule.body?.isSome

end GateRules
