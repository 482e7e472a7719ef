/-!
# Where reading stopped

When a text is not a rule, the report names what was expected and marks the place. A text of one line is shown whole with
a mark under it; of a longer text the line in question is shown with its number. Marks are set by bytes of UTF-8 where a
line is shown whole and by characters otherwise, except that a character of several bytes is marked by bytes.
-/

namespace GateRules

/-- A token that had to come next. -/
inductive Notation.Expected where
  | field
  | operator
  | value
deriving DecidableEq

/-- The name of a token in a report. -/
def Notation.Expected.name : Expected → String
  | .field => "field name"
  | .operator => "operator"
  | .value => "quoted value"

/-- Where reading stopped: what had to come next, or nothing if a complete rule came before, and the text from there
on. -/
structure Notation.Failure where
  expected : Option Expected
  rest : List Char
deriving DecidableEq

/-- The size of a text in bytes of UTF-8. -/
def Notation.utf8Length (cs : List Char) : Nat := (String.ofList cs).utf8ByteSize

/-- The lines of a text, split at line feeds alone. -/
def Notation.lines : List Char → List (List Char)
  | [] => [[]]
  | c :: cs =>
    if c = '\n' then [] :: lines cs
    else match lines cs with
      | [] => [[c]]
      | line :: more => (c :: line) :: more

/-- The part of a text after its last line feed. -/
def Notation.lastLine (cs : List Char) : List Char := (lines cs).getLastD []

/-- The part of `text` before the place where reading stopped. -/
def Notation.Failure.before (failure : Failure) (text : List Char) : List Char :=
  text.take (text.length - failure.rest.length)

/-- How many bytes come before the place where reading stopped. -/
def Notation.Failure.offset (failure : Failure) (text : List Char) : Nat := utf8Length (failure.before text)

/-- The text before the character that the mark is set at; at the end of the text that is its last character. -/
def Notation.Failure.beforeMark (failure : Failure) (text : List Char) : List Char :=
  if failure.rest.isEmpty then text.dropLast else failure.before text

/-- How far to the right the mark stands in its line. -/
def Notation.Failure.indent (failure : Failure) (text : List Char) : Nat :=
  let line := lastLine (failure.beforeMark text)
  match failure.rest with
  | [] => line.length + 1
  | c :: _ => if c.utf8Size = 1 then line.length else utf8Length line

/-- A run of blanks. -/
def Notation.blanks (n : Nat) : String := String.ofList (List.replicate n ' ')

/-- What had to come next, in words. -/
def Notation.Failure.expectation (failure : Failure) : String :=
  match failure.expected with
  | none => ""
  | some expected => "expected " ++ expected.name

/-- The report of a failure to read `text`. -/
def Notation.Failure.report (failure : Failure) (text : List Char) : String :=
  if '\n' ∈ text then
    let row := (lines (failure.beforeMark text)).length
    let gutter := blanks (toString row).length
    let shown := String.ofList ((lines text).getD (row - 1) [])
    "parse error at line " ++ toString row ++ ", column " ++ toString (failure.indent text + 1) ++ "\n" ++
      gutter ++ " |\n" ++ toString row ++ " | " ++ shown ++ "\n" ++
      gutter ++ " | " ++ blanks (failure.indent text) ++ "^\n" ++ failure.expectation
  else
    String.ofList text ++ "\n" ++ blanks (failure.offset text) ++ "^\n" ++ failure.expectation

end GateRules
