import GateRules.Body
import GateRules.Event
import GateRules.Registry

/-!
# Builders

A builder puts a body together from a stream of instructions: expressions go to the open AND-group, and an OR condition
closes that group. Nothing is checked against the vocabulary before the body is finished.
-/

namespace GateRules

/-- A body in the making. -/
structure Builder where
  flow : Flow
  tenant : String
  vocabulary : Vocabulary
  closed : List Clause
  opened : List Expression
deriving DecidableEq

/-- A builder for the vocabulary that is looked up. -/
def Builder.create (serve : Lookup) (flow : Flow) (tenant : String) : Logged (Except RegistryFault Builder) :=
  match serve flow tenant with
  | .error fault => ⟨.error fault, []⟩
  | .ok vocabulary => ⟨.ok ⟨flow, tenant, vocabulary, [], []⟩, [.builderCreated flow tenant vocabulary.size]⟩

/-- An expression goes to the open group. -/
def Builder.add (b : Builder) (e : Expression) : Builder := { b with opened := b.opened ++ [e] }

/-- The open group is closed, and a new one opened. A group must not be closed while it is empty. -/
def Builder.or (b : Builder) : Except Defect Builder :=
  if h : b.opened ≠ [] then .ok { b with closed := b.closed ++ [⟨b.opened, h⟩], opened := [] }
  else .error (.danglingOr b.closed.length)

/-- The clauses of the finished body; none if nothing was added. -/
def Builder.clauses (b : Builder) : Except Defect (List Clause) :=
  if b.opened = [] ∧ b.closed = [] then .ok [] else b.or.map Builder.closed

/-- The finished body, if every expression is in the vocabulary. -/
def Builder.finish (b : Builder) : Except Defect Body := do
  let clauses ← b.clauses
  match b.vocabulary.firstObjection? b.flow (clauses.map Clause.expressions) with
  | some defect => throw defect
  | none => Body.ofList clauses

/-- The finished body, told of when there is one. -/
def Builder.build (b : Builder) : Logged (Except Defect Body) :=
  match b.finish with
  | .error defect => ⟨.error defect, []⟩
  | .ok body => ⟨.ok body, [.ruleBuilt b.flow b.tenant body.size body.expressionCount]⟩

/-- What a builder can be told to do. -/
inductive Builder.Instruction where
  | add (e : Expression)
  | or
deriving DecidableEq

/-- The builder after some instructions, up to the first that fails. -/
def Builder.follow (b : Builder) : List Instruction → Except Defect Builder
  | [] => .ok b
  | .add e :: rest => (b.add e).follow rest
  | .or :: rest => match b.or with
    | .error defect => .error defect
    | .ok b => b.follow rest

/-- The instructions for groups of expressions: an OR condition goes before every group but the first. -/
def Builder.instructions (groups : List (List Expression)) : List Instruction :=
  [Instruction.or].intercalate (groups.map (List.map Instruction.add))

end GateRules
