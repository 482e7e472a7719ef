/-!
# Tokens of the notation

A name is an identifier, written bare, or any text at all, written in quotes. Between quotes a backslash changes what the
next character means: a quote and a backslash stand for themselves, `n` and `t` for a line feed and a tab, and before any
other character the backslash stands for itself. `quote` writes a text so that reading it gives the text again.
-/

namespace GateRules

/-- Whether an identifier may start with this character. -/
def Notation.isIdentifierStart (c : Char) : Bool := c.isAlpha || c == '_'

/-- Whether an identifier may go on with this character. -/
def Notation.isIdentifierChar (c : Char) : Bool := c.isAlphanum || c == '_' || c == '.'

/-- Whether the whole of a text is one identifier. -/
def Notation.isIdentifier : List Char → Bool
  | [] => false
  | c :: cs => isIdentifierStart c && cs.all isIdentifierChar

/-- The longest identifier in front of a text, and what follows it. -/
def Notation.readIdentifier : List Char → Option (List Char × List Char)
  | [] => none
  | c :: cs =>
    if isIdentifierStart c then some (c :: cs.takeWhile isIdentifierChar, cs.dropWhile isIdentifierChar) else none

/-- What a backslash and this character stand for. -/
def Notation.unescape : Char → List Char
  | '"' => ['"']
  | '\\' => ['\\']
  | 'n' => ['\n']
  | 't' => ['\t']
  | c => ['\\', c]

/-- How this character is written between quotes. -/
def Notation.escape : Char → List Char
  | '"' => ['\\', '"']
  | '\\' => ['\\', '\\']
  | '\n' => ['\\', 'n']
  | '\t' => ['\\', 't']
  | c => [c]

/-- The text up to the closing quote, and what follows the quote; nothing if the quote is missing. -/
def Notation.readItems : List Char → Option (List Char × List Char)
  | [] => none
  | '"' :: rest => some ([], rest)
  | '\\' :: c :: rest => (readItems rest).map fun (items, rest) => (unescape c ++ items, rest)
  | c :: rest => (readItems rest).map fun (items, rest) => (c :: items, rest)

/-- A text in quotes. -/
def Notation.quote (text : List Char) : List Char := '"' :: text.flatMap escape ++ ['"']

/-- A field as it is written: bare if it is an identifier, otherwise in quotes. -/
def Notation.writeField (field : List Char) : List Char :=
  if isIdentifier field then field else quote field

/-- A name has at least one character. -/
theorem Notation.length_readIdentifier {cs name rest : List Char} (h : readIdentifier cs = some (name, rest)) :
    rest.length < cs.length := by
  cases cs with
  | nil => simp [readIdentifier] at h
  | cons c cs =>
    simp only [readIdentifier, Option.ite_none_right_eq_some, Option.some.injEq, Prod.mk.injEq] at h
    rw [← h.2.2]
    exact Nat.lt_succ_of_le (List.dropWhile_suffix _).length_le

/-- The inside of a string takes up some of the text, at least the closing quote. -/
theorem Notation.length_readItems {cs items rest : List Char} (h : readItems cs = some (items, rest)) :
    rest.length < cs.length := by
  fun_induction readItems cs generalizing items rest with
  | case1 => cases h
  | case2 => simp_all
  | case3 c cs ih =>
    obtain ⟨⟨more, r⟩, hr, hi⟩ := Option.map_eq_some_iff.1 h
    have := ih hr
    simp only [Prod.mk.injEq] at hi
    simp only [List.length_cons, ← hi.2]
    omega
  | case4 c cs _ _ ih =>
    obtain ⟨⟨more, r⟩, hr, hi⟩ := Option.map_eq_some_iff.1 h
    have := ih hr
    simp only [Prod.mk.injEq] at hi
    simp only [List.length_cons, ← hi.2]
    omega

end GateRules
