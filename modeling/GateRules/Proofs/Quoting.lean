import GateRules.Proofs.Writing

/-!
# Tokens with anything behind them

A name and a string are written so that they are read again, and so that exactly the text behind them is left. A string may have
any text behind it, and a bare name any text that cannot make it longer. Where a string ends is told without reading it: at the
first quote that is not escaped, which is one with an even number of backslashes directly in front of it (`Notation.Escapes`).
What is read is the text between two such quotes (`Notation.Inside.exists_text`), and two strings that are written
differently may be read as the same text; to write that text makes one of them, and it is read as the text again.
-/

namespace GateRules

/-! ## Escaped characters -/

/-- How many backslashes a text ends in. -/
def Notation.trailingBackslashes (before : List Char) : Nat := (before.reverse.takeWhile (· == '\\')).length

/-- A character behind this text is escaped: the backslashes that the text ends in escape one another in pairs, and one is left
over for the character. -/
def Notation.Escapes (before : List Char) : Prop := trailingBackslashes before % 2 = 1

/-- A backslash in front counts only if there is nothing but backslashes behind it. -/
theorem Notation.trailingBackslashes_cons (c : Char) (cs : List Char) :
    trailingBackslashes (c :: cs) =
      trailingBackslashes cs + if trailingBackslashes cs = cs.length ∧ c = '\\' then 1 else 0 := by
  simp only [trailingBackslashes, List.reverse_cons, List.takeWhile_append, List.length_reverse, List.takeWhile_cons,
    List.takeWhile_nil, beq_iff_eq]
  by_cases all : (cs.reverse.takeWhile (· == '\\')).length = cs.length
  · by_cases hc : c = '\\' <;> simp [all, hc]
  · simp [all]

theorem Notation.trailingBackslashes_le (cs : List Char) : trailingBackslashes cs ≤ cs.length := by
  induction cs with
  | nil => simp [trailingBackslashes]
  | cons c cs ih =>
    rw [trailingBackslashes_cons, List.length_cons]
    split <;> omega

theorem Notation.not_escapes_nil : ¬Escapes [] := by
  simp [Escapes, trailingBackslashes]

theorem Notation.escapes_backslash : Escapes ['\\'] := by
  simp [Escapes, trailingBackslashes]

/-- What comes first has no part in what is escaped at the end, if it is no backslash. -/
theorem Notation.escapes_cons_iff {c : Char} (notBackslash : c ≠ '\\') (cs : List Char) : Escapes (c :: cs) ↔ Escapes cs := by
  simp [Escapes, trailingBackslashes_cons, notBackslash]

/-- A backslash and the character that it escapes have no part in it either. -/
theorem Notation.escapes_pair_iff (c : Char) (cs : List Char) : Escapes ('\\' :: c :: cs) ↔ Escapes cs := by
  have le := trailingBackslashes_le cs
  simp only [Escapes, trailingBackslashes_cons, List.length_cons, and_true]
  by_cases hc : c = '\\'
  · by_cases all : trailingBackslashes cs = cs.length
    · simp only [all, hc, and_self, if_true]
      omega
    · simp only [all, hc, false_and, if_false, Nat.add_zero]
      rw [if_neg (by omega), Nat.add_zero]
  · simp only [hc, and_false, if_false, Nat.add_zero]
    rw [if_neg (by omega), Nat.add_zero]

/-! ## What stands between quotes -/

/-- What stands between two quotes if the second is the first that is not escaped: every quote in it is escaped, and what comes
behind it is not. -/
structure Notation.Inside (items : List Char) : Prop where
  quotes : ∀ a b, items = a ++ '"' :: b → Escapes a
  ended : ¬Escapes items

theorem Notation.inside_nil : Inside [] where
  quotes a b h := by simp at h
  ended := not_escapes_nil

/-- A character that is neither a quote nor a backslash does not matter to what may stand inside of a string. -/
theorem Notation.inside_cons_iff {c : Char} (notQuote : c ≠ '"') (notBackslash : c ≠ '\\') (cs : List Char) :
    Inside (c :: cs) ↔ Inside cs := by
  constructor
  · intro h
    refine ⟨?_, fun he => h.ended ((escapes_cons_iff notBackslash cs).2 he)⟩
    intro a b hab
    exact (escapes_cons_iff notBackslash a).1 (h.quotes (c :: a) b (by rw [hab, List.cons_append]))
  · intro h
    refine ⟨?_, fun he => h.ended ((escapes_cons_iff notBackslash cs).1 he)⟩
    intro a b hab
    cases a with
    | nil => exact absurd (List.cons.inj hab).1 notQuote
    | cons x a =>
      obtain ⟨rfl, rfl⟩ := List.cons.inj hab
      exact (escapes_cons_iff notBackslash a).2 (h.quotes a b rfl)

/-- A backslash with the character behind it does not matter to what may stand inside of a string. -/
theorem Notation.inside_pair_iff (c : Char) (cs : List Char) : Inside ('\\' :: c :: cs) ↔ Inside cs := by
  constructor
  · intro h
    refine ⟨?_, fun he => h.ended ((escapes_pair_iff c cs).2 he)⟩
    intro a b hab
    exact (escapes_pair_iff c a).1 (h.quotes ('\\' :: c :: a) b (by rw [hab, List.cons_append, List.cons_append]))
  · intro h
    refine ⟨?_, fun he => h.ended ((escapes_pair_iff c cs).1 he)⟩
    intro a b hab
    rcases a with _ | ⟨x, _ | ⟨y, a⟩⟩
    · simp at hab
    · obtain ⟨rfl, -⟩ := List.cons.inj hab
      exact escapes_backslash
    · simp only [List.cons_append, List.cons.injEq] at hab
      obtain ⟨rfl, rfl, rfl⟩ := hab
      exact (escapes_pair_iff c a).2 (h.quotes a b rfl)

/-- What is made of items has no quote in it that is not escaped. -/
theorem Notation.Items.inside {items text : List Char} (h : Items items text) : Inside items := by
  induction h with
  | nil => exact inside_nil
  | cons first more ih =>
    cases first with
    | plain notQuote notBackslash => exact (inside_cons_iff notQuote notBackslash _).2 ih
    | quote | backslash | lineFeed | tab | other _ => exact (inside_pair_iff _ _).2 ih

/-- What has no quote in it that is not escaped is made of items, and so it stands for some text. -/
theorem Notation.Inside.exists_text {items : List Char} (h : Inside items) : ∃ text, Items items text := by
  fun_induction readItems items with
  | case1 => exact ⟨[], .nil⟩
  | case2 cs => exact absurd (h.quotes [] cs rfl) not_escapes_nil
  | case3 c cs ih =>
    obtain ⟨text, ht⟩ := ih ((inside_pair_iff c cs).1 h)
    exact ⟨unescape c ++ text, .cons (item_unescape c) ht⟩
  | case4 c cs notQuote notPair ih =>
    -- a backslash could only be the last character, and then it would escape the closing quote
    have notBackslash : c ≠ '\\' := by
      rintro rfl
      cases cs with
      | nil => exact h.ended escapes_backslash
      | cons d cs => exact notPair d cs rfl rfl
    obtain ⟨text, ht⟩ := ih ((inside_cons_iff notQuote notBackslash cs).1 h)
    exact ⟨c :: text, .cons (.plain notQuote notBackslash) ht⟩

/-- A string is read exactly where there is an opening quote, and up to the first quote behind it that is not escaped. -/
theorem Notation.exists_readQuoted_iff {expected : Expected} {cs rest : List Char} :
    (∃ text, readQuoted expected cs = .ok (text, rest)) ↔ ∃ items, cs = '"' :: (items ++ '"' :: rest) ∧ Inside items := by
  simp only [readQuoted_eq_ok_iff]
  constructor
  · rintro ⟨text, ⟨items⟩⟩
    exact ⟨_, rfl, items.inside⟩
  · rintro ⟨items, rfl, inside⟩
    obtain ⟨text, h⟩ := inside.exists_text
    exact ⟨text, .mk h⟩

/-! ## Names -/

/-- What is read as an identifier and what is left make up the text. -/
theorem Notation.Identifier.append_eq {cs name rest : List Char} (h : Identifier cs name rest) : cs = name ++ rest := by
  cases h
  rfl

/-- What is read as a name is an identifier. -/
theorem Notation.Identifier.isIdentifier {cs name rest : List Char} (h : Identifier cs name rest) :
    isIdentifier name = true := by
  obtain ⟨start, parts, -⟩ := h
  simp only [Notation.isIdentifier, Bool.and_eq_true, List.all_eq_true]
  exact ⟨identifierStart_iff.1 start, fun x hx => identifierPart_iff.1 (parts x hx)⟩

/-- A name is read as far as it goes. -/
theorem Notation.Identifier.ended {cs name rest : List Char} (h : Identifier cs name rest) :
    ∀ x, rest.head? = some x → ¬IdentifierPart x := by
  obtain ⟨-, -, ended⟩ := h
  exact ended

/-- A text is an identifier exactly when an identifier is read from it and nothing is left. -/
theorem Notation.isIdentifier_iff {cs : List Char} : isIdentifier cs = true ↔ ∃ name, readIdentifier cs = some (name, []) := by
  simp only [readIdentifier_eq_some_iff]
  constructor
  · intro h
    have whole := @identifier_append cs [] h (by simp)
    rw [List.append_nil] at whole
    exact ⟨cs, whole⟩
  · rintro ⟨name, h⟩
    rw [h.append_eq, List.append_nil]
    exact h.isIdentifier

/-- A field as it is written is read as the field exactly when what is behind it does not make a bare name longer. -/
theorem Notation.readField_writeField_iff {field rest : List Char} :
    readField (writeField field ++ rest) = .ok (field, rest) ↔
      (isIdentifier field = true → ∀ x, rest.head? = some x → ¬IdentifierPart x) := by
  rw [readField_eq_ok_iff]
  constructor
  · intro h bare
    rw [writeField, if_pos bare] at h
    rcases h with h | h
    · exact h.ended
    · -- an identifier does not start with a quote
      have none := readIdentifier_of_quoted h
      cases field with
      | nil => cases bare
      | cons c more =>
        simp only [Notation.isIdentifier, Bool.and_eq_true] at bare
        simp [readIdentifier, bare.1] at none
  · exact field_writeField field

/-! ## Both tokens -/

/-- Tokens are written and read again with any text behind them, in five parts.
1. A text in quotes is read as the text, whatever stands in it and whatever is behind it, and what is behind it is left.
2. A text is an identifier exactly when an identifier is read from it that leaves nothing, and to read one loses nothing.
3. A field as it is written is read as the field, and what is behind it is left, exactly when the field is in quotes or no letter
   or digit of ASCII, underscore or dot is behind it.
4. A string is read exactly where a quote is, up to the first quote behind it that is not escaped.
5. What is read as a string is written as a string that is read as the same text, with the same text behind it. -/
theorem Notation.token_codec :
    (∀ (expected : Expected) (text rest : List Char), readQuoted expected (quote text ++ rest) = .ok (text, rest)) ∧
    (∀ cs : List Char, (isIdentifier cs = true ↔ ∃ name, readIdentifier cs = some (name, [])) ∧
      ∀ name rest, readIdentifier cs = some (name, rest) → cs = name ++ rest) ∧
    (∀ field rest : List Char, readField (writeField field ++ rest) = .ok (field, rest) ↔
      (isIdentifier field = true → ∀ x, rest.head? = some x → ¬IdentifierPart x)) ∧
    (∀ (expected : Expected) (cs rest : List Char), (∃ text, readQuoted expected cs = .ok (text, rest)) ↔
      ∃ items, cs = '"' :: (items ++ '"' :: rest) ∧ Inside items) ∧
    (∀ (expected : Expected) (cs text rest : List Char), readQuoted expected cs = .ok (text, rest) →
      readQuoted expected (quote text ++ rest) = .ok (text, rest)) := by
  have back : ∀ (expected : Expected) (text rest : List Char),
      readQuoted expected (quote text ++ rest) = .ok (text, rest) := by
    intro expected text rest
    exact readQuoted_eq_ok_iff.2 (quoted_quote text rest)
  refine ⟨back, ?_, ?_, ?_, ?_⟩
  · intro cs
    refine ⟨isIdentifier_iff, ?_⟩
    intro name rest h
    exact (readIdentifier_eq_some_iff.1 h).append_eq
  · intro field rest
    exact readField_writeField_iff
  · intro expected cs rest
    exact exists_readQuoted_iff
  · intro expected cs text rest _
    exact back expected text rest

/-- A string with an escape that means nothing, an escaped quote and an escaped backslash ends at its fourth quote, of which the
text behind it has one more. It is written in another way and read as the same text. The field `or` is bare, so a blank may be
behind it. -/
theorem Notation.token_codec_backslashes :
    let cs := ['"', '\\', 'x', '\\', '"', '\\', '\\', '"', '"']
    let text := ['\\', 'x', '"', '\\']
    readQuoted .value cs = .ok (text, ['"']) ∧ quote text ++ ['"'] ≠ cs ∧
      readQuoted .value (quote text ++ ['"']) = .ok (text, ['"']) ∧
      (∃ items, cs = '"' :: (items ++ ['"', '"']) ∧ Inside items) ∧
      readField (writeField ['o', 'r'] ++ [' ']) = .ok (['o', 'r'], [' ']) := by
  intro cs text
  have read : readQuoted .value cs = .ok (text, ['"']) := by decide
  obtain ⟨-, -, fields, ends, again⟩ := token_codec
  refine ⟨read, by decide, again .value cs text ['"'] read, (ends .value cs ['"']).1 ⟨text, read⟩, ?_⟩
  refine (fields ['o', 'r'] [' ']).2 ?_
  intro _ x hx
  exact not_identifierPart_blank [] x hx

end GateRules
