import GateRules.Notation.Failure
import GateRules.Notation.Layout
import GateRules.Notation.Token
import GateRules.Term
import GateRules.Text.Reader

/-!
# Reading the notation

A rule is written as terms joined by `and` and `or`, where `and` binds tighter, so that what is read is an OR of
AND-groups. The connectives are read in any letter case and need white space directly after them. Once a connective is
read, a term must follow. A text of nothing but layout has no groups at all.
-/

namespace GateRules

/-- White space that may stand directly after a connective. -/
def Notation.isGap (c : Char) : Bool := c == ' ' || c == '\t' || c == '\n' || c == '\r'

/-- What follows `word`, in any letter case, if there is white space directly after it. -/
def Notation.stripWord : List Char → List Char → Option (List Char)
  | [], c :: cs => if isGap c then some (c :: cs) else none
  | w :: word, c :: cs => if c.toLower = w then stripWord word cs else none
  | _, [] => none

/-- A word that is taken off, in whatever case, makes the text no longer. -/
theorem Notation.length_stripWord {word cs rest : List Char} (h : stripWord word cs = some rest) :
    rest.length ≤ cs.length := by
  fun_induction stripWord word cs with
  | case1 => simp_all
  | case2 => cases h
  | case3 word c cs ih => exact Nat.le_succ_of_le (ih h)
  | case4 => cases h
  | case5 => cases h

/-- A connective, with the layout in front of it. -/
def Notation.connective (word : List Char) : Separator where
  skip? cs := stripWord word (skipLayout cs)
  length_le h := Nat.le_trans (length_stripWord h) (length_skipLayout_le _)

/-- A text in quotes, which has to be there. At the end of the text a quote may be missing. -/
def Notation.readQuoted (expected : Expected) (cs : List Char) : Except Failure (List Char × List Char) :=
  match cs with
  | '"' :: items => match readItems items with
    | some read => .ok read
    | none => .error ⟨some expected, []⟩
  | _ => .error ⟨some expected, cs⟩

/-- A field, bare or in quotes. -/
def Notation.readField (cs : List Char) : Except Failure (List Char × List Char) :=
  match readIdentifier cs with
  | some read => .ok read
  | none => readQuoted .field cs

/-- An operator. -/
def Notation.readOperator (cs : List Char) : Except Failure (List Char × List Char) :=
  match readIdentifier cs with
  | some read => .ok read
  | none => .error ⟨some .operator, cs⟩

/-- A field, an operator and a quoted value, with layout in front of each. -/
def Notation.readTerm (cs : List Char) : Except Failure (Term × List Char) := do
  let (field, cs) ← readField (skipLayout cs)
  let (operator, cs) ← readOperator (skipLayout cs)
  let (value, cs) ← readQuoted .value (skipLayout cs)
  return (⟨String.ofList field, String.ofList operator, String.ofList value⟩, cs)

/-- A quoted string takes up some of the text, at least its quotes. -/
theorem Notation.length_readQuoted {expected : Expected} {cs text rest : List Char}
    (h : readQuoted expected cs = .ok (text, rest)) : rest.length < cs.length := by
  unfold readQuoted at h
  split at h
  · split at h
    · rename_i items _ hi
      cases h
      exact Nat.lt_succ_of_lt (length_readItems hi)
    · cases h
  · cases h

/-- A field takes up some of the text, be it a name or a quoted string. -/
theorem Notation.length_readField {cs text rest : List Char} (h : readField cs = .ok (text, rest)) :
    rest.length < cs.length := by
  unfold readField at h
  split at h
  · rename_i hi
    cases h
    exact length_readIdentifier hi
  · exact length_readQuoted h

/-- An operator takes up some of the text. -/
theorem Notation.length_readOperator {cs text rest : List Char} (h : readOperator cs = .ok (text, rest)) :
    rest.length < cs.length := by
  unfold readOperator at h
  split at h
  · rename_i hi
    cases h
    exact length_readIdentifier hi
  · cases h

/-- A term is read exactly when its three tokens are, one after the other. -/
theorem Notation.readTerm_eq_ok_iff {cs rest : List Char} {term : Term} :
    readTerm cs = .ok (term, rest) ↔ ∃ field operator value afterField afterOperator,
      readField (skipLayout cs) = .ok (field, afterField) ∧
      readOperator (skipLayout afterField) = .ok (operator, afterOperator) ∧
      readQuoted .value (skipLayout afterOperator) = .ok (value, rest) ∧
      term = ⟨String.ofList field, String.ofList operator, String.ofList value⟩ := by
  constructor
  · intro h
    unfold readTerm at h
    match hf : readField (skipLayout cs) with
    | .error e => simp [hf, bind, Except.bind] at h
    | .ok (field, afterField) =>
      match ho : readOperator (skipLayout afterField) with
      | .error e => simp [hf, ho, bind, Except.bind] at h
      | .ok (operator, afterOperator) =>
        match hv : readQuoted .value (skipLayout afterOperator) with
        | .error e => simp [hf, ho, hv, bind, Except.bind] at h
        | .ok (value, afterValue) =>
          simp only [hf, ho, hv, bind, Except.bind, pure, Except.pure, Except.ok.injEq, Prod.mk.injEq] at h
          exact ⟨field, operator, value, afterField, afterOperator, rfl, ho, h.2 ▸ hv, h.1.symm⟩
  · rintro ⟨field, operator, value, afterField, afterOperator, hf, ho, hv, rfl⟩
    simp [readTerm, hf, ho, hv, bind, Except.bind, pure, Except.pure]

/-- The reader of one term. -/
def Notation.term : Reader Failure Term where
  run := readTerm
  shortens {cs t rest} h := by
    obtain ⟨field, operator, value, afterField, afterOperator, hf, ho, hv, -⟩ := readTerm_eq_ok_iff.1 h
    have := length_readField hf
    have := length_readOperator ho
    have := length_readQuoted hv
    have := length_skipLayout_le cs
    have := length_skipLayout_le afterField
    have := length_skipLayout_le afterOperator
    omega

/-- The connective inside an AND-group. -/
def Notation.and : Separator := connective ['a', 'n', 'd']

/-- The connective between AND-groups. -/
def Notation.or : Separator := connective ['o', 'r']

/-- The reader of an AND-group. -/
def Notation.group : Reader Failure (List Term) := term.sepBy Notation.and

/-- The reader of all groups of a rule. -/
def Notation.groups : Reader Failure Draft := group.sepBy Notation.or

/-- The groups of a whole text. -/
def Notation.readDraft (cs : List Char) : Except Failure Draft :=
  match skipLayout cs with
  | [] => .ok []
  | here => match groups.run here with
    | .error failure => .error failure
    | .ok (draft, rest) => match skipLayout rest with
      | [] => .ok draft
      | rest => .error ⟨none, rest⟩

/-- A text that is not a rule, and where reading it stopped. -/
structure Notation.Misread where
  text : String
  failure : Failure
deriving DecidableEq

/-- The message about a text that is not a rule. -/
def Notation.Misread.message (misread : Misread) : String :=
  "rule notation error: " ++ misread.failure.report misread.text.toList

/-- The groups that a text writes down. -/
def Notation.read (text : String) : Except Misread Draft :=
  (readDraft text.toList).mapError (Misread.mk text)

end GateRules
