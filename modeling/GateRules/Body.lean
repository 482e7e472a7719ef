import GateRules.Expression

/-!
# Rule bodies

A body is an OR of clauses and a clause an AND of expressions; neither is ever empty. Order is kept and counts in
equality, so a body is written out again as it was read.
-/

namespace GateRules

/-- An AND of at least one expression. -/
structure Clause where
  expressions : List Expression
  expressions_ne_nil : expressions ≠ []
deriving DecidableEq

/-- The clause of these expressions, if there are any. -/
def Clause.ofList (expressions : List Expression) : Except Defect Clause :=
  if h : expressions ≠ [] then .ok ⟨expressions, h⟩ else .error .emptyGroup

/-- How many expressions a clause has. -/
def Clause.size (clause : Clause) : Nat := clause.expressions.length

/-- An OR of at least one clause. -/
structure Body where
  clauses : List Clause
  clauses_ne_nil : clauses ≠ []
deriving DecidableEq

/-- The body of these clauses, if there are any. -/
def Body.ofList (clauses : List Clause) : Except Defect Body :=
  if h : clauses ≠ [] then .ok ⟨clauses, h⟩ else .error .emptyBody

/-- The expressions of a body, clause by clause. -/
def Body.groups (body : Body) : List (List Expression) := body.clauses.map Clause.expressions

/-- How many clauses a body has. -/
def Body.size (body : Body) : Nat := body.clauses.length

/-- How many expressions a body has in all its clauses. -/
def Body.expressionCount (body : Body) : Nat := body.clauses.foldl (fun count clause => count + clause.size) 0

/-- A body written out term by term. -/
def Body.draft (body : Body) : Draft := body.clauses.map fun clause => clause.expressions.map Expression.term

/-- The body a draft stands for. The draft is read from left to right, and the first defect is given without its
place. -/
def Body.ofDraft (draft : Draft) : Except Defect Body := do
  let clauses ← draft.mapM fun terms => do Clause.ofList (← terms.mapM Expression.ofTerm)
  Body.ofList clauses

/-- The expressions of one group of a draft. The first term that is no expression is refused with its place, and so is
the group if it is empty. -/
def Draft.groupExpressions (group : Nat) (terms : List Term) : Except Defect (List Expression) := do
  let expressions ← terms.zipIdx.mapM fun (term, index) =>
    (Expression.ofTerm term).mapError (Defect.atExpression group index)
  if expressions.isEmpty then throw (.inGroup group .emptyGroup) else pure expressions

/-- The expressions of a draft, group by group, up to the first group that is refused. -/
def Draft.expressions (draft : Draft) : Except Defect (List (List Expression)) :=
  draft.zipIdx.mapM fun (terms, group) => groupExpressions group terms

/-- A body has at least one group. -/
theorem Body.groups_ne_nil (body : Body) : body.groups ≠ [] := by
  simpa [groups] using body.clauses_ne_nil

/-- No group of a body is empty. -/
theorem Body.nil_notMem_groups (body : Body) : [] ∉ body.groups := by
  simp only [groups, List.mem_map, not_exists, not_and]
  exact fun clause _ => clause.expressions_ne_nil

/-- A body has as many groups as its size says. -/
theorem Body.length_groups (body : Body) : body.groups.length = body.size := by
  simp [groups, size]

/-- A body is determined by its groups. -/
theorem Body.groups_injective {a b : Body} (h : a.groups = b.groups) : a = b := by
  have hinj : ∀ x y : Clause, x.expressions = y.expressions → x = y := fun ⟨_, _⟩ ⟨_, _⟩ hxy => by simpa using hxy
  cases a
  cases b
  simpa [groups, List.map_inj_right hinj] using h

end GateRules
