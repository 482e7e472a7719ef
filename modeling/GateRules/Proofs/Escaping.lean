import GateRules.Json.Quoted

/-!
# Strings that come back

Every text, written between quotes, is read as itself. Writing makes one piece of each character, and reading takes one piece
at a time: the piece is either the character, which then must be none of those that mean something between quotes, or an
escape (`Json.escape_cases`). A control character without a name of its own takes the longest way, over four digits that are
put together again.
-/

namespace GateRules

/-! ## Control characters -/

/-- A hexadecimal digit is read back from its character. -/
theorem Text.hexDigit?_digitChar {d : Nat} (h : d < 16) : hexDigit? (Nat.digitChar d) = some d := by
  have all : ∀ d < 16, hexDigit? (Nat.digitChar d) = some d := by decide
  exact all d h

/-- The four digits that a control character is written with stand for its number. -/
theorem Json.readHex4_control {c : Char} (h : c < ' ') (rest : List Char) :
    readHex4 ('0' :: '0' :: Nat.digitChar (c.toNat / 16) :: Nat.digitChar (c.toNat % 16) :: rest) =
      .ok (c.toNat, rest) := by
  have bound : c.toNat < 32 := h
  have zero : Text.hexDigit? '0' = some 0 := by decide
  have high : Text.hexDigit? (Nat.digitChar (c.toNat / 16)) = some (c.toNat / 16) :=
    Text.hexDigit?_digitChar (by omega)
  have low : Text.hexDigit? (Nat.digitChar (c.toNat % 16)) = some (c.toNat % 16) :=
    Text.hexDigit?_digitChar (by omega)
  have value : Text.hexValue? ['0', '0', Nat.digitChar (c.toNat / 16), Nat.digitChar (c.toNat % 16)] =
      some c.toNat := by
    simp [Text.hexValue?, List.mapM_cons, zero, high, low]
    omega
  simp only [readHex4, value]

/-- A control character is no half of a surrogate pair, so its four digits are all that is read. -/
theorem Json.readCodeUnits_control {c : Char} (h : c < ' ') (rest : List Char) :
    readCodeUnits ('0' :: '0' :: Nat.digitChar (c.toNat / 16) :: Nat.digitChar (c.toNat % 16) :: rest) =
      .ok (c, rest) := by
  have bound : c.toNat < 32 := h
  have noLow : ¬(0xDC00 ≤ c.toNat ∧ c.toNat ≤ 0xDFFF) := by omega
  have noHigh : c.toNat < 0xD800 ∨ 0xDBFF < c.toNat := by omega
  simp only [readCodeUnits, readHex4_control h, if_neg noLow, if_pos noHigh, Char.ofNat_toNat]

/-! ## One character -/

/-- A character is written as itself if it may stand between quotes as it is, and otherwise as an escape that is read as the
character. -/
theorem Json.escape_cases (c : Char) : (escape c = [c] ∧ c ≠ '"' ∧ c ≠ '\\' ∧ ¬c < ' ') ∨
    ∃ code, escape c = '\\' :: code ∧ ∀ rest, readEscape (code ++ rest) = .ok (c, rest) := by
  unfold escape
  split
  · subst c
    exact .inr ⟨['"'], rfl, fun _ => rfl⟩
  split
  · subst c
    exact .inr ⟨['\\'], rfl, fun _ => rfl⟩
  split
  · subst c
    exact .inr ⟨['b'], rfl, fun _ => rfl⟩
  split
  · subst c
    exact .inr ⟨['f'], rfl, fun _ => rfl⟩
  split
  · subst c
    exact .inr ⟨['n'], rfl, fun _ => rfl⟩
  split
  · subst c
    exact .inr ⟨['r'], rfl, fun _ => rfl⟩
  split
  · subst c
    exact .inr ⟨['t'], rfl, fun _ => rfl⟩
  split
  · rename_i control
    exact .inr ⟨_, rfl, readCodeUnits_control control⟩
  · rename_i notQuote notBackslash _ _ _ _ _ notControl
    exact .inl ⟨rfl, notQuote, notBackslash, notControl⟩

theorem Json.readString_quote (rest : List Char) : readString ('"' :: rest) = .ok ([], rest) := by
  rw [readString, if_pos rfl]

/-- An escape stands for one character of a string. -/
theorem Json.readString_escape {cs rest : List Char} {c : Char} (h : readEscape cs = .ok (c, rest)) :
    readString ('\\' :: cs) = Reader.mapValue (c :: ·) (readString rest) := by
  rw [readString, if_neg (by decide), if_pos rfl]
  split <;> simp_all

/-- Any other character stands for itself in a string, unless it is a control character. -/
theorem Json.readString_plain {c : Char} (notQuote : c ≠ '"') (notBackslash : c ≠ '\\') (notControl : ¬c < ' ')
    (cs : List Char) : readString (c :: cs) = Reader.mapValue (c :: ·) (readString cs) := by
  rw [readString, if_neg notQuote, if_neg notBackslash, if_neg notControl]

/-! ## Whole texts -/

/-- A text is read from between its quotes as it was, whatever is behind them. -/
theorem Json.readString_escaped (text rest : List Char) :
    readString (text.flatMap escape ++ '"' :: rest) = .ok (text, rest) := by
  induction text with
  | nil => exact readString_quote rest
  | cons c text ih =>
    rw [List.flatMap_cons, List.append_assoc]
    rcases escape_cases c with ⟨plain, notQuote, notBackslash, notControl⟩ | ⟨code, escaped, read⟩
    · rw [plain, List.singleton_append, readString_plain notQuote notBackslash notControl, ih, Reader.mapValue_ok]
    · rw [escaped, List.cons_append, readString_escape (read _), ih, Reader.mapValue_ok]

/-- A string is written between quotes, with each of its characters escaped. -/
theorem Json.writeString_append (text rest : List Char) :
    writeString text ++ rest = '"' :: (text.flatMap escape ++ '"' :: rest) := by
  simp [writeString]

end GateRules
