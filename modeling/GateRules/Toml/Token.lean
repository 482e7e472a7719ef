import GateRules.Text.Hex
import GateRules.Text.Reader
import GateRules.Toml.Value

/-!
# The tokens of TOML

Blanks, line ends, comments and strings. A text is read as a string in one of four ways, by the quote that it starts with
and by how many there are; only double quotes give the backslash a meaning.
-/

namespace GateRules

/-- Reads from a TOML document. -/
abbrev Toml.Decoder (α : Type) := Reader Toml.Fault α

/-- A blank within a line. -/
def Toml.isBlank (c : Char) : Bool := c == ' ' || c == '\t'

/-- A character that stands in no line of a document. -/
def Toml.isControl (c : Char) : Bool := (c < ' ' && c != '\t') || c == '\x7f'

/-- What is left when the blanks in front are passed over. -/
def Toml.skipBlanks (cs : List Char) : List Char := cs.dropWhile isBlank

/-- Blanks that are passed over make the text no longer. -/
theorem Toml.length_skipBlanks_le (cs : List Char) : (skipBlanks cs).length ≤ cs.length :=
  (List.dropWhile_suffix _).length_le

/-- What follows the end of a line, if the line ends here. -/
def Toml.newline? : List Char → Option (List Char)
  | '\n' :: rest => some rest
  | '\r' :: '\n' :: rest => some rest
  | _ => none

/-- The end of a line is at least one character. -/
theorem Toml.length_newline? {cs rest : List Char} (h : newline? cs = some rest) : rest.length < cs.length := by
  unfold newline? at h
  split at h
  · cases h
    simp only [List.length_cons]
    omega
  · cases h
    simp only [List.length_cons]
    omega
  · cases h

/-- What is left when the blanks in front, and a comment after them, are passed over. -/
def Toml.skipComment (cs : List Char) : List Char :=
  match skipBlanks cs with
  | '#' :: rest => rest.dropWhile fun c => !isControl c
  | rest => rest

/-- A comment that is passed over makes the text no longer. -/
theorem Toml.length_skipComment_le (cs : List Char) : (skipComment cs).length ≤ cs.length := by
  have := length_skipBlanks_le cs
  unfold skipComment
  split
  · rename_i rest h
    have h1 : ('#' :: rest).length ≤ cs.length := h ▸ this
    exact Nat.le_trans (List.dropWhile_suffix _).length_le (Nat.le_of_succ_le h1)
  · exact this

/-- What follows the end of a line that has nothing more than blanks and a comment. -/
def Toml.lineBreak? (cs : List Char) : Option (List Char) := newline? (skipComment cs)

/-- The end of a line takes up some of the text, with the comment in front of it. -/
theorem Toml.length_lineBreak? {cs rest : List Char} (h : lineBreak? cs = some rest) : rest.length < cs.length :=
  Nat.lt_of_lt_of_le (length_newline? h) (length_skipComment_le cs)

/-- What is left when blanks, comments and line ends are passed over. -/
def Toml.skipLines (cs : List Char) : List Char :=
  match _h : lineBreak? cs with
  | some rest => skipLines rest
  | none => skipBlanks cs
termination_by cs.length
decreasing_by exact length_lineBreak? _h

/-- Blanks, comments and line ends that are passed over make the text no longer. -/
theorem Toml.length_skipLines_le (cs : List Char) : (skipLines cs).length ≤ cs.length := by
  fun_induction skipLines cs with
  | case1 cs rest h ih => exact Nat.le_trans ih (Nat.le_of_lt (length_lineBreak? h))
  | case2 cs => exact length_skipBlanks_le cs

theorem Toml.length_of_skipLines {cs here : List Char} (h : skipLines cs = here) : here.length ≤ cs.length :=
  h ▸ length_skipLines_le cs

/-- What is left when blanks and line ends are passed over. -/
def Toml.skipBreaks (cs : List Char) : List Char :=
  match _h : newline? (skipBlanks cs) with
  | some rest => skipBreaks rest
  | none => skipBlanks cs
termination_by cs.length
decreasing_by exact Nat.lt_of_lt_of_le (length_newline? _h) (length_skipBlanks_le cs)

/-- Blanks and line ends that are passed over make the text no longer. -/
theorem Toml.length_skipBreaks_le (cs : List Char) : (skipBreaks cs).length ≤ cs.length := by
  fun_induction skipBreaks cs with
  | case1 cs rest h ih =>
    exact Nat.le_trans ih (Nat.le_of_lt (Nat.lt_of_lt_of_le (length_newline? h) (length_skipBlanks_le cs)))
  | case2 cs => exact length_skipBlanks_le cs

/-- A quoting style: the quote, and whether the text may have several lines. -/
structure Toml.Quoting where
  quote : Char
  isMultiline : Bool

/-- The character whose number is written with so many hexadecimal digits; there has to be such a character. -/
def Toml.readHex (digits : Nat) (cs : List Char) : Except Fault (Char × List Char) :=
  match Text.hexValue? (cs.take digits) with
  | none => .error .malformed
  | some n => if digits ≤ cs.length ∧ n.isValidChar then .ok (Char.ofNat n, cs.drop digits) else .error .malformed

/-- What a backslash and the text after it stand for. -/
def Toml.readEscape : List Char → Except Fault (Char × List Char)
  | [] => .error .malformed
  | c :: rest => match c with
    | '"' => .ok ('"', rest)
    | '\\' => .ok ('\\', rest)
    | 'b' => .ok ('\x08', rest)
    | 'e' => .ok ('\x1b', rest)
    | 'f' => .ok ('\x0c', rest)
    | 'n' => .ok ('\n', rest)
    | 'r' => .ok ('\r', rest)
    | 't' => .ok ('\t', rest)
    | 'x' => readHex 2 rest
    | 'u' => readHex 4 rest
    | 'U' => readHex 8 rest
    | _ => .error .malformed

/-- The digits of an escape are taken from the text. -/
theorem Toml.length_readHex {digits : Nat} {cs rest : List Char} {c : Char} (h : readHex digits cs = .ok (c, rest)) :
    rest.length ≤ cs.length := by
  unfold readHex at h
  split at h
  · cases h
  · split at h
    · simp only [Except.ok.injEq, Prod.mk.injEq] at h
      rw [← h.2, List.length_drop]
      omega
    · cases h

/-- Every escape takes up some of the text. -/
theorem Toml.length_readEscape {cs rest : List Char} {c : Char} (h : readEscape cs = .ok (c, rest)) :
    rest.length < cs.length := by
  unfold readEscape at h
  split at h
  · cases h
  · split at h
    all_goals first
      | exact Nat.lt_succ_of_le (length_readHex h)
      | cases h
    all_goals simp

/-- The next piece of a quoted text: some characters of it, and whether it closes the text. -/
structure Toml.Piece where
  chars : List Char
  closes : Bool
  rest : List Char

/-- The next piece of a quoted text. Three quotes close a text of several lines, and up to two more may stand before
them as part of the text. -/
def Toml.readPiece (style : Quoting) (cs : List Char) : Except Fault Piece :=
  match cs with
  | [] => .error .malformed
  | c :: rest =>
    if c = style.quote then
      if style.isMultiline then
        let quotes := (rest.takeWhile (· = style.quote)).length + 1
        let after := rest.dropWhile (· = style.quote)
        if quotes < 3 then .ok ⟨List.replicate quotes style.quote, false, after⟩
        else if quotes < 6 then .ok ⟨List.replicate (quotes - 3) style.quote, true, after⟩
        else .error .malformed
      else .ok ⟨[], true, rest⟩
    else if c = '\\' ∧ style.quote = '"' then
      match if style.isMultiline then newline? (skipBlanks rest) else none with
      | some after => .ok ⟨[], false, skipBreaks after⟩
      | none => match readEscape rest with
        | .error fault => .error fault
        | .ok (d, after) => .ok ⟨[d], false, after⟩
    else if isControl c then
      match if style.isMultiline then newline? (c :: rest) else none with
      | some after => .ok ⟨if c = '\r' then ['\r', '\n'] else [c], false, after⟩
      | none => .error .malformed
    else .ok ⟨[c], false, rest⟩

/-- A piece of a quoted text takes up some of the text, even if it adds no character. -/
theorem Toml.length_readPiece {style : Quoting} {cs : List Char} {piece : Piece} (h : readPiece style cs = .ok piece) :
    piece.rest.length < cs.length := by
  unfold readPiece at h
  split at h
  · cases h
  rename_i c rest
  split at h
  · split at h
    · have : (rest.dropWhile fun d => decide (d = style.quote)).length ≤ rest.length :=
        (List.dropWhile_suffix _).length_le
      dsimp only at h
      split at h
      · cases h; exact Nat.lt_succ_of_le this
      split at h
      · cases h; exact Nat.lt_succ_of_le this
      · cases h
    · cases h; simp
  split at h
  · split at h
    · rename_i after ha
      split at ha
      · have h1 := length_newline? ha
        have h2 := length_skipBlanks_le rest
        have h3 := length_skipBreaks_le after
        cases h
        simp only [List.length_cons]
        omega
      · cases ha
    · split at h
      · cases h
      · rename_i he
        have := length_readEscape he
        cases h
        simp only [List.length_cons]
        omega
  split at h
  · split at h
    · rename_i after ha
      split at ha
      · have := length_newline? ha
        cases h
        exact this
      · cases ha
    · cases h
  · cases h; simp

/-- A quoted text, after its opening quotes. -/
def Toml.readQuoted (style : Quoting) (cs : List Char) : Except Fault (List Char × List Char) :=
  match _h : readPiece style cs with
  | .error fault => .error fault
  | .ok piece =>
    if piece.closes then .ok (piece.chars, piece.rest)
    else Reader.mapValue (piece.chars ++ ·) (readQuoted style piece.rest)
termination_by cs.length
decreasing_by exact length_readPiece _h

/-- What is quoted takes up some of the text, at least the closing quote. -/
theorem Toml.length_readQuoted {style : Quoting} {cs text rest : List Char}
    (h : readQuoted style cs = .ok (text, rest)) : rest.length < cs.length := by
  fun_induction readQuoted style cs generalizing text rest with
  | case1 => cases h
  | case2 cs piece hp _ =>
    cases h
    exact length_readPiece hp
  | case3 cs piece hp _ ih =>
    obtain ⟨more, hm, -⟩ := Reader.mapValue_eq_ok_iff.1 h
    exact Nat.lt_trans (ih hm) (length_readPiece hp)

/-- A quoted text of one line. -/
def Toml.readLine (quote : Char) (cs : List Char) : Except Fault (String × List Char) :=
  Reader.mapValue String.ofList (readQuoted ⟨quote, false⟩ cs)

/-- A quoted text, after its first quote. The line end right after three opening quotes is not part of the text. -/
def Toml.readText (quote : Char) (cs : List Char) : Except Fault (String × List Char) :=
  match cs with
  | a :: b :: rest =>
    if a = quote ∧ b = quote then
      Reader.mapValue String.ofList (readQuoted ⟨quote, true⟩ ((newline? rest).getD rest))
    else readLine quote cs
  | _ => readLine quote cs

/-- A string on one line takes up some of the text, at least the closing quote. -/
theorem Toml.length_readLine {quote : Char} {cs rest : List Char} {text : String}
    (h : readLine quote cs = .ok (text, rest)) : rest.length < cs.length := by
  obtain ⟨_, hr, -⟩ := Reader.mapValue_eq_ok_iff.1 h
  exact length_readQuoted hr

/-- A string takes up some of the text, be it on one line or on several. -/
theorem Toml.length_readText {quote : Char} {cs rest : List Char} {text : String}
    (h : readText quote cs = .ok (text, rest)) : rest.length < cs.length := by
  unfold readText at h
  split at h
  · rename_i a b after
    split at h
    · obtain ⟨_, hr, -⟩ := Reader.mapValue_eq_ok_iff.1 h
      have h1 := length_readQuoted hr
      have h2 : ((newline? after).getD after).length ≤ after.length := by
        cases hn : newline? after with
        | none => exact Nat.le_refl _
        | some r => exact Nat.le_of_lt (length_newline? hn)
      simp only [List.length_cons]
      omega
    · exact length_readLine h
  · exact length_readLine h

end GateRules
