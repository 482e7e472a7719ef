import GateRules.Rule

/-!
# Requests

The form in which rules are asked for and answered: a list of AND-groups of terms. In a request the list may be absent or
empty, and either means that no rule is wanted. An answer for an unconditional action has no such form at all.
-/

namespace GateRules

/-- A rule as it is asked for. -/
structure Request where
  rules : Option Draft
deriving DecidableEq

/-- The groups a request asks for, if it asks for any. -/
def Request.draft? (request : Request) : Option Draft :=
  match request.rules with
  | none | some [] => none
  | some draft => some draft

/-- A rule as it is answered; nothing for the unconditional rule. -/
def Rule.request? : Rule → Option Request
  | .unconditional => none
  | .conditional body _ _ => some ⟨some body.draft⟩

end GateRules
