/-!
# Operators

The nine comparisons an expression may make between a field and a value. Each is written as one token, and a token is
matched letter for letter: `ofToken?` answers exactly the tokens that `token` writes (`ofToken?_eq_some_iff`).
-/

namespace GateRules

/-- A comparison between a field and a value. -/
inductive Operator where
  | equals
  | notEquals
  | contains
  | oneOf
  | notOneOf
  | greaterThan
  | greaterThanOrEquals
  | lessThan
  | lessThanOrEquals
deriving DecidableEq

/-- Every operator, in the order they are tried and listed. -/
def Operator.all : List Operator :=
  [.equals, .notEquals, .contains, .oneOf, .notOneOf, .greaterThan, .greaterThanOrEquals, .lessThan, .lessThanOrEquals]

/-- The token an operator is written as. -/
def Operator.token : Operator → String
  | .equals => "equals"
  | .notEquals => "notEquals"
  | .contains => "contains"
  | .oneOf => "in"
  | .notOneOf => "notIn"
  | .greaterThan => "greaterThan"
  | .greaterThanOrEquals => "greaterThanOrEquals"
  | .lessThan => "lessThan"
  | .lessThanOrEquals => "lessThanOrEquals"

/-- The operator written as `text`, if there is one. -/
def Operator.ofToken? (text : String) : Option Operator :=
  Operator.all.find? fun operator => operator.token = text

/-- The list of operators has every operator in it. -/
theorem Operator.mem_all (operator : Operator) : operator ∈ Operator.all := by
  cases operator <;> decide

/-- An operator is read back from its token. -/
theorem Operator.ofToken?_token (operator : Operator) : Operator.ofToken? operator.token = some operator := by
  cases operator <;> decide

/-- A token names only the operator that is written as it. -/
theorem Operator.token_of_ofToken? {text : String} {operator : Operator} (h : Operator.ofToken? text = some operator) :
    operator.token = text := by
  simpa using List.find?_some h

/-- A text is read as an operator exactly when it is that operator's token. -/
theorem Operator.ofToken?_eq_some_iff {text : String} {operator : Operator} :
    Operator.ofToken? text = some operator ↔ operator.token = text :=
  ⟨token_of_ofToken?, fun h => h ▸ ofToken?_token operator⟩

/-- Two operators with one token are the same operator. -/
theorem Operator.token_injective {a b : Operator} (h : a.token = b.token) : a = b := by
  have := ofToken?_token a
  rw [h, ofToken?_token b] at this
  exact (Option.some.inj this).symm

end GateRules
