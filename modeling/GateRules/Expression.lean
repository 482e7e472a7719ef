import GateRules.Defect
import GateRules.Term
import GateRules.Text.Blank

/-!
# Expressions

The atom of a rule: a field, an operator and a value. The field is never blank and the value never empty, so the type
itself says so. A value is kept as the text it came as; what it means is left to whoever evaluates the rule.
-/

namespace GateRules

/-- A comparison of one field with one value. -/
structure Expression where
  field : String
  operator : Operator
  value : String
  field_not_blank : Text.isBlank field = false
  value_ne_empty : value ≠ ""
deriving DecidableEq

/-- An expression of these parts, unless the field is blank or the value empty. -/
def Expression.make (field : String) (operator : Operator) (value : String) : Except Defect Expression :=
  if hf : Text.isBlank field = false then
    if hv : value ≠ "" then .ok ⟨field, operator, value, hf, hv⟩ else .error (.missing .value)
  else .error (.missing .field)

/-- The expression a term stands for. The attributes are looked at from left to right, and the first that is at fault
is the one reported. -/
def Expression.ofTerm (term : Term) : Except Defect Expression :=
  if Text.isBlank term.field then .error (.missing .field)
  else if Text.isBlank term.operator then .error (.missing .operator)
  else match Operator.ofToken? term.operator with
    | none => .error (.unknownOperator term.operator)
    | some operator => Expression.make term.field operator term.value

/-- The term an expression is written as. -/
def Expression.term (e : Expression) : Term := ⟨e.field, e.operator.token, e.value⟩

/-- The parts of an expression make that expression again. -/
theorem Expression.make_fields (e : Expression) : make e.field e.operator e.value = .ok e := by
  simp [make, e.field_not_blank, e.value_ne_empty]

/-- No operator is written as a blank text. -/
theorem Operator.token_not_blank (operator : Operator) : Text.isBlank operator.token = false := by
  cases operator <;> decide

/-- Reading back the term of an expression gives the expression. -/
theorem Expression.ofTerm_term (e : Expression) : ofTerm e.term = .ok e := by
  simp [ofTerm, term, e.field_not_blank, Operator.token_not_blank, Operator.ofToken?_token, make_fields]

/-- An expression has the parts that it is made of, unchanged. -/
theorem Expression.fields_of_make {field value : String} {operator : Operator} {e : Expression}
    (h : make field operator value = .ok e) : e.field = field ∧ e.operator = operator ∧ e.value = value := by
  unfold make at h
  split at h
  · split at h
    · cases h; exact ⟨rfl, rfl, rfl⟩
    · cases h
  · cases h

/-- The term of an expression is the term it was read from. -/
theorem Expression.term_of_ofTerm {t : Term} {e : Expression} (h : ofTerm t = .ok e) : e.term = t := by
  unfold ofTerm at h
  split at h
  · cases h
  split at h
  · cases h
  split at h
  · cases h
  · rename_i operator ho
    obtain ⟨hf, hp, hv⟩ := fields_of_make h
    cases t
    simp_all [term, Operator.token_of_ofToken? ho]

end GateRules
