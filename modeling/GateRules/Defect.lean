import GateRules.Action
import GateRules.Operator

/-!
# Defects

What can be wrong with a rule. A defect found in a rule of many parts is wrapped with the place where it was found;
`root` takes the wrappers off, and `causes` lists what lies under a defect, outermost first.
-/

namespace GateRules

/-- A part that every expression must have. -/
inductive Attribute where
  | field
  | operator
  | value
deriving DecidableEq

/-- The name an attribute has in messages. -/
def Attribute.name : Attribute → String
  | .field => "field"
  | .operator => "operator"
  | .value => "value"

/-- Why a rule is refused. Groups and expressions are counted from zero. -/
inductive Defect where
  /-- An attribute of an expression is blank. -/
  | missing (which : Attribute)
  /-- An operator's token is none of the known ones. -/
  | unknownOperator (token : String)
  /-- An AND-group has no expression. -/
  | emptyGroup
  /-- A rule has no AND-group. -/
  | emptyBody
  /-- An OR condition leaves this AND-group without expressions. -/
  | danglingOr (group : Nat)
  /-- The vocabulary of the flow does not have this field. -/
  | unknownField (field : String) (flow : Flow)
  /-- The vocabulary of the flow has this field, but not with this operator. -/
  | unsupportedOperator (field : String) (operator : Operator) (flow : Flow)
  /-- An AND-group as a whole is at fault. -/
  | inGroup (group : Nat) (source : Defect)
  /-- One expression of an AND-group is at fault. -/
  | atExpression (group index : Nat) (source : Defect)
deriving DecidableEq

/-- The message of a defect, which ends in the message of what it wraps. -/
def Defect.message : Defect → String
  | .missing which => "expression " ++ which.name ++ " must not be empty"
  | .unknownOperator token => "unknown operator '" ++ token ++ "'"
  | .emptyGroup => "AND rule must contain at least one expression"
  | .emptyBody => "rule must contain at least one AND rule"
  | .danglingOr group => "OR condition leaves AND rule " ++ toString group ++ " without expressions"
  | .unknownField field flow => "field '" ++ field ++ "' is not supported for flow '" ++ flow.token ++ "'"
  | .unsupportedOperator field operator flow =>
    "operator '" ++ operator.token ++ "' is not supported for field '" ++ field ++ "' in flow '" ++ flow.token ++ "'"
  | .inGroup group source => "AND rule " ++ toString group ++ ": " ++ source.message
  | .atExpression group index source =>
    "expression " ++ toString index ++ " of AND rule " ++ toString group ++ ": " ++ source.message

/-- The defect without its wrappers. -/
def Defect.root : Defect → Defect
  | .inGroup _ source | .atExpression _ _ source => source.root
  | defect => defect

/-- The defects under this one, outermost first. -/
def Defect.causes : Defect → List Defect
  | .inGroup _ source | .atExpression _ _ source => source :: source.causes
  | _ => []

/-- The innermost of a defect and its causes is its root. -/
theorem Defect.getLast_causes (defect : Defect) :
    (defect :: defect.causes).getLast (by simp) = defect.root := by
  induction defect with
  | inGroup group source ih => simpa [causes, root] using ih
  | atExpression group index source ih => simpa [causes, root] using ih
  | _ => rfl

end GateRules
