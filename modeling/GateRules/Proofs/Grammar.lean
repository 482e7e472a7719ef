import GateRules.Term
import Mathlib.Logic.Relation

/-!
# The grammar of the notation

What a text has to be like to be layout, a token, a term, an AND-group or a rule. Each is a relation between a text and
what is left of it, and none is defined by a reader. That a token ends where it does is part of the relation: an
identifier goes on as long as it can, and a comment ends where its line does.
-/

namespace GateRules

/-! ## Layout -/

/-- A text that starts where a line ends. -/
inductive Notation.LineEnd : List Char → Prop
  | endOfText : LineEnd []
  | lineFeed (cs : List Char) : LineEnd ('\n' :: cs)
  | returnAndFeed (cs : List Char) : LineEnd ('\r' :: '\n' :: cs)

/-- One character of white space or one comment, and the text after it. What ends a comment is not part of it. -/
inductive Notation.LayoutPiece : List Char → List Char → Prop
  | space {c : Char} {cs : List Char} (h : c ∈ [' ', '\t', '\n', '\r', '\x0c']) : LayoutPiece (c :: cs) cs
  | comment {body rest : List Char} (noReturn : '\r' ∉ body) (noFeed : '\n' ∉ body) (ended : LineEnd rest) :
      LayoutPiece ('#' :: (body ++ rest)) rest

/-- Any sequence of white space and comments, and the text after it. -/
def Notation.Layout : List Char → List Char → Prop := Relation.ReflTransGen LayoutPiece

/-! ## Tokens -/

/-- A letter of ASCII or an underscore. -/
def Notation.IdentifierStart (c : Char) : Prop := ('A' ≤ c ∧ c ≤ 'Z') ∨ ('a' ≤ c ∧ c ≤ 'z') ∨ c = '_'

/-- A letter of ASCII, an underscore, a digit of ASCII or a dot. -/
def Notation.IdentifierPart (c : Char) : Prop := IdentifierStart c ∨ ('0' ≤ c ∧ c ≤ '9') ∨ c = '.'

/-- A text, the identifier that it starts with, and the text after it, which cannot make the identifier longer. -/
inductive Notation.Identifier : List Char → List Char → List Char → Prop
  | mk {c : Char} {more rest : List Char} (start : IdentifierStart c) (parts : ∀ x ∈ more, IdentifierPart x)
      (ended : ∀ x, rest.head? = some x → ¬IdentifierPart x) : Identifier (c :: (more ++ rest)) (c :: more) rest

/-- One item between quotes, and what it stands for. -/
inductive Notation.Item : List Char → List Char → Prop
  | plain {c : Char} (notQuote : c ≠ '"') (notBackslash : c ≠ '\\') : Item [c] [c]
  | quote : Item ['\\', '"'] ['"']
  | backslash : Item ['\\', '\\'] ['\\']
  | lineFeed : Item ['\\', 'n'] ['\n']
  | tab : Item ['\\', 't'] ['\t']
  | other {c : Char} (h : c ∉ ['"', '\\', 'n', 't']) : Item ['\\', c] ['\\', c]

/-- Items between quotes, and the text they stand for. -/
inductive Notation.Items : List Char → List Char → Prop
  | nil : Items [] []
  | cons {item decoded items text : List Char} (first : Item item decoded) (more : Items items text) :
      Items (item ++ items) (decoded ++ text)

/-- A text, what the string that it starts with stands for, and the text after the string. -/
inductive Notation.Quoted : List Char → List Char → List Char → Prop
  | mk {items text rest : List Char} (h : Items items text) : Quoted ('"' :: (items ++ '"' :: rest)) text rest

/-- A field is an identifier or a string. -/
inductive Notation.Field : List Char → List Char → List Char → Prop
  | bare {cs name rest : List Char} (h : Identifier cs name rest) : Field cs name rest
  | quoted {cs name rest : List Char} (h : Quoted cs name rest) : Field cs name rest

/-- A word in any letter case, and the text after it, which starts with white space. -/
inductive Notation.Connective (word : List Char) : List Char → List Char → Prop
  | mk {letters rest : List Char} {c : Char} (spelt : letters.map Char.toLower = word)
      (gap : c ∈ [' ', '\t', '\n', '\r']) : Connective word (letters ++ c :: rest) (c :: rest)

/-! ## Terms, groups and rules -/

/-- A field, an operator and a value, each with layout in front of it. -/
inductive Notation.DerivesTerm : List Char → Term → List Char → Prop
  | mk {cs atField field afterField atOperator operator afterOperator atValue value rest : List Char}
      (layout₁ : Layout cs atField) (fieldToken : Field atField field afterField)
      (layout₂ : Layout afterField atOperator) (operatorToken : Identifier atOperator operator afterOperator)
      (layout₃ : Layout afterOperator atValue) (valueToken : Quoted atValue value rest) :
      DerivesTerm cs ⟨String.ofList field, String.ofList operator, String.ofList value⟩ rest

/-- Items with layout and a connective between each two. -/
inductive Notation.Chain {α : Type} (item : List Char → α → List Char → Prop) (word : List Char) :
    List Char → List α → List Char → Prop
  | last {cs rest : List Char} {a : α} (h : item cs a rest) : Chain item word cs [a] rest
  | link {cs after atWord next rest : List Char} {a : α} {as : List α} (h : item cs a after)
      (layout : Layout after atWord) (joined : Connective word atWord next) (more : Chain item word next as rest) :
      Chain item word cs (a :: as) rest

/-- Terms joined by `and`. -/
def Notation.DerivesGroup : List Char → List Term → List Char → Prop := Chain DerivesTerm ['a', 'n', 'd']

/-- A whole text and the groups that it writes down: none if it is nothing but layout, and otherwise groups joined by `or`
with layout behind them. -/
inductive Notation.Derives : List Char → Draft → Prop
  | nothing {cs : List Char} (h : Layout cs []) : Derives cs []
  | rule {cs rest : List Char} {draft : Draft} (h : Chain DerivesGroup ['o', 'r'] cs draft rest)
      (layout : Layout rest []) : Derives cs draft

end GateRules
