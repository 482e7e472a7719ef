import GateRules.Body
import GateRules.Notation.Token

/-!
# Writing the notation

How a body is written: expressions joined by `and`, clauses joined by `or`, and no layout but single blanks.
-/

namespace GateRules

/-- An expression in notation. -/
def Expression.notate (e : Expression) : List Char :=
  Notation.writeField e.field.toList ++ ' ' :: e.operator.token.toList ++ ' ' :: Notation.quote e.value.toList

/-- A clause in notation. -/
def Clause.notate (clause : Clause) : List Char :=
  [' ', 'a', 'n', 'd', ' '].intercalate (clause.expressions.map Expression.notate)

/-- A body in notation. -/
def Body.notate (body : Body) : List Char :=
  [' ', 'o', 'r', ' '].intercalate (body.clauses.map Clause.notate)

/-- The text of an expression. -/
def Expression.text (e : Expression) : String := String.ofList e.notate

/-- The text of a clause. -/
def Clause.text (clause : Clause) : String := String.ofList clause.notate

/-- The text of a body. -/
def Body.text (body : Body) : String := String.ofList body.notate

end GateRules
