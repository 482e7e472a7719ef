/-!
# Layout

What the notation skips between its tokens: white space and comments. A comment starts with `#` and ends before the end
of its line. A line ends at a line feed, at a carriage return with a line feed after it, or with the text; a carriage
return alone ends no line, and a `#` that meets one first starts no comment.
-/

namespace GateRules

/-- The white space that is skipped: the five characters of ASCII that count as such. -/
def Notation.isSpace (c : Char) : Bool :=
  c == ' ' || c == '\t' || c == '\n' || c == '\r' || c == '\x0c'

/-- Whether a comment goes on through this character. -/
def Notation.isCommentChar (c : Char) : Bool := c != '\r' && c != '\n'

/-- Whether a line ends here. -/
def Notation.atLineEnd : List Char → Bool
  | [] => true
  | '\n' :: _ => true
  | '\r' :: '\n' :: _ => true
  | _ => false

/-- What is left when the white space and the comments in front are passed over. -/
def Notation.skipLayout : List Char → List Char
  | [] => []
  | c :: cs =>
    if isSpace c then skipLayout cs
    else if c = '#' ∧ atLineEnd (cs.dropWhile isCommentChar) then skipLayout (cs.dropWhile isCommentChar)
    else c :: cs
termination_by cs => cs.length
decreasing_by
  · simp
  · exact Nat.lt_succ_of_le (List.dropWhile_suffix _).length_le

/-- Layout is passed over from the front, so what is left is an end of the text. -/
theorem Notation.skipLayout_suffix (cs : List Char) : skipLayout cs <:+ cs := by
  fun_induction skipLayout cs with
  | case1 => exact List.suffix_refl _
  | case2 c cs _ ih => exact ih.trans (List.suffix_cons c cs)
  | case3 c cs _ _ ih => exact (ih.trans (List.dropWhile_suffix _)).trans (List.suffix_cons c cs)
  | case4 => exact List.suffix_refl _

/-- Layout that is passed over makes the text no longer. -/
theorem Notation.length_skipLayout_le (cs : List Char) : (skipLayout cs).length ≤ cs.length :=
  (skipLayout_suffix cs).length_le

end GateRules
