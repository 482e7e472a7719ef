import GateRules.Json.Skip
import GateRules.Proofs.Escaping

/-!
# Strings of JSON by their grammar

What may stand between the quotes of a string, and what it stands for, told without a reader: characters that stand for
themselves, and escapes, which may be a letter, four digits, or twice four digits for a surrogate pair (`Json.Escape`). A string
is read exactly when its spelling stands for a text (`Json.readString_eq_ok_iff`). One that is passed over may have any code
units in it (`Json.Chars`). Either way the string ends at one place (`Json.Chars.end_unique`).
-/

namespace GateRules

/-! ## Escapes -/

/-- What may stand behind a backslash, and the character that it stands for with the backslash. -/
inductive Json.Escape : List Char → Char → Prop
  | letter {e d : Char} (h : simpleEscape? e = some d) : Escape [e] d
  | unit {a b c d : Char} {unit : Nat} (digits : Text.hexValue? [a, b, c, d] = some unit)
      (single : unit < 0xD800 ∨ 0xDFFF < unit) : Escape ['u', a, b, c, d] (Char.ofNat unit)
  | pair {a b c d a' b' c' d' : Char} {high low : Nat} (digits : Text.hexValue? [a, b, c, d] = some high)
      (digits' : Text.hexValue? [a', b', c', d'] = some low) (isHigh : 0xD800 ≤ high ∧ high ≤ 0xDBFF)
      (isLow : 0xDC00 ≤ low ∧ low ≤ 0xDFFF) : Escape ['u', a, b, c, d, '\\', 'u', a', b', c', d']
        (Char.ofNat (0x10000 + (high - 0xD800) * 0x400 + (low - 0xDC00)))

/-- Four digits are read exactly when they stand for a number. -/
theorem Json.readHex4_eq_ok_iff {cs rest : List Char} {unit : Nat} : readHex4 cs = .ok (unit, rest) ↔
    ∃ a b c d, cs = a :: b :: c :: d :: rest ∧ Text.hexValue? [a, b, c, d] = some unit := by
  constructor
  · intro h
    unfold readHex4 at h
    split at h
    · split at h
      · rename_i a b c d after _ value digits
        cases h
        exact ⟨a, b, c, d, rfl, digits⟩
      · cases h
    · split at h <;> cases h
  · rintro ⟨a, b, c, d, rfl, digits⟩
    simp only [readHex4, digits]

/-- One code unit, or a pair of them, is read for what it stands for. -/
theorem Json.readCodeUnits_eq_ok_iff {cs rest : List Char} {c : Char} : readCodeUnits cs = .ok (c, rest) ↔
    ∃ units, cs = units ++ rest ∧ Escape ('u' :: units) c := by
  constructor
  · intro h
    unfold readCodeUnits at h
    split at h
    · cases h
    rename_i unit after hunit
    obtain ⟨a, b, x, d, rfl, digits⟩ := readHex4_eq_ok_iff.1 hunit
    split at h
    · cases h
    rename_i notLow
    split at h
    · rename_i notHigh
      cases h
      exact ⟨[a, b, x, d], rfl, .unit digits (by omega)⟩
    rename_i high
    split at h
    · cases h
    · cases h
    · rename_i after'
      split at h
      · cases h
      rename_i low last hlow
      obtain ⟨a', b', x', d', rfl, digits'⟩ := readHex4_eq_ok_iff.1 hlow
      split at h
      · cases h
      · rename_i isLow
        simp only [Except.ok.injEq, Prod.mk.injEq] at h
        obtain ⟨rfl, rfl⟩ := h
        exact ⟨[a, b, x, d, '\\', 'u', a', b', x', d'], rfl, .pair digits digits' (by omega) (by omega)⟩
    · cases h
  · rintro ⟨units, rfl, escape⟩
    cases escape with
    | letter h => cases h
    | @unit a b x d unit digits single =>
      have first : readHex4 ([a, b, x, d] ++ rest) = .ok (unit, rest) := readHex4_eq_ok_iff.2 ⟨a, b, x, d, rfl, digits⟩
      rw [readCodeUnits]
      simp only [first]
      rw [if_neg (by omega), if_pos (by omega)]
    | @pair a b x d a' b' x' d' high low digits digits' isHigh isLow =>
      have second : readHex4 ([a', b', x', d'] ++ rest) = .ok (low, rest) :=
        readHex4_eq_ok_iff.2 ⟨a', b', x', d', rfl, digits'⟩
      have first : readHex4 ([a, b, x, d, '\\', 'u', a', b', x', d'] ++ rest) =
          .ok (high, '\\' :: 'u' :: ([a', b', x', d'] ++ rest)) := readHex4_eq_ok_iff.2 ⟨a, b, x, d, rfl, digits⟩
      rw [readCodeUnits]
      simp only [first, second]
      rw [if_neg (by omega), if_neg (by omega), if_neg (by omega)]

/-- An escape is read for what it stands for. -/
theorem Json.readEscape_eq_ok_iff {cs rest : List Char} {d : Char} : readEscape cs = .ok (d, rest) ↔
    ∃ code, cs = code ++ rest ∧ Escape code d := by
  constructor
  · intro h
    unfold readEscape at h
    split at h
    · cases h
    rename_i c after
    split at h
    · rename_i isUnit
      obtain ⟨units, rfl, escape⟩ := readCodeUnits_eq_ok_iff.1 h
      exact ⟨'u' :: units, by rw [isUnit]; rfl, escape⟩
    · split at h
      · rename_i d' letter
        cases h
        exact ⟨[c], rfl, .letter letter⟩
      · cases h
  · rintro ⟨code, rfl, escape⟩
    cases escape with
    | @letter e d h =>
      have notUnit : e ≠ 'u' := by
        rintro rfl
        cases h
      simp only [List.cons_append, List.nil_append, readEscape, if_neg notUnit, h]
    | unit digits single => exact readCodeUnits_eq_ok_iff.2 ⟨_, rfl, .unit digits single⟩
    | pair digits digits' isHigh isLow => exact readCodeUnits_eq_ok_iff.2 ⟨_, rfl, .pair digits digits' isHigh isLow⟩

/-! ## Strings that are read -/

/-- What stands between the quotes of a string, and the text that it stands for. -/
inductive Json.Spells : List Char → List Char → Prop
  | nil : Spells [] []
  | plain {c : Char} {cs text : List Char} (notQuote : c ≠ '"') (notBackslash : c ≠ '\\') (notControl : ¬c < ' ')
      (more : Spells cs text) : Spells (c :: cs) (c :: text)
  | escape {code cs text : List Char} {c : Char} (h : Escape code c) (more : Spells cs text) :
      Spells ('\\' :: (code ++ cs)) (c :: text)

/-- A string is read exactly up to the quote behind a spelling, and for the text that is spelt. -/
theorem Json.readString_eq_ok_iff {cs text rest : List Char} : readString cs = .ok (text, rest) ↔
    ∃ spelling, cs = spelling ++ '"' :: rest ∧ Spells spelling text := by
  constructor
  · intro h
    fun_induction readString cs generalizing text rest with
    | case1 => cases h
    | case2 =>
      cases h
      exact ⟨[], rfl, .nil⟩
    | case3 => cases h
    | case4 cs c after read _ ih =>
      obtain ⟨more, hm, rfl⟩ := Reader.mapValue_eq_ok_iff.1 h
      obtain ⟨code, rfl, escape⟩ := readEscape_eq_ok_iff.1 read
      obtain ⟨spelling, rfl, spells⟩ := ih hm
      exact ⟨'\\' :: (code ++ spelling), by simp, .escape escape spells⟩
    | case5 => cases h
    | case6 c cs notQuote notBackslash notControl ih =>
      obtain ⟨more, hm, rfl⟩ := Reader.mapValue_eq_ok_iff.1 h
      obtain ⟨spelling, rfl, spells⟩ := ih hm
      exact ⟨c :: spelling, rfl, .plain notQuote notBackslash notControl spells⟩
  · rintro ⟨spelling, rfl, spells⟩
    induction spells with
    | nil => exact readString_quote rest
    | plain notQuote notBackslash notControl _ ih =>
      rw [List.cons_append, readString_plain notQuote notBackslash notControl, ih, Reader.mapValue_ok]
    | escape h _ ih =>
      rw [List.cons_append, List.append_assoc, readString_escape (readEscape_eq_ok_iff.2 ⟨_, rfl, h⟩), ih, Reader.mapValue_ok]

/-- A text with nothing in it that has to be escaped is spelt as itself. -/
theorem Json.spells_self {text : List Char} (h : ∀ c ∈ text, c ≠ '"' ∧ c ≠ '\\' ∧ ¬c < ' ') : Spells text text := by
  induction text with
  | nil => exact .nil
  | cons c text ih =>
    obtain ⟨⟨notQuote, notBackslash, notControl⟩, more⟩ := List.forall_mem_cons.1 h
    exact .plain notQuote notBackslash notControl (ih more)

/-! ## Strings that are passed over -/

/-- What may stand between quotes where nothing is made of it: code units of a surrogate pair may stand alone. -/
inductive Json.Chars : List Char → Prop
  | nil : Chars []
  | plain {c : Char} {cs : List Char} (notQuote : c ≠ '"') (notBackslash : c ≠ '\\') (notControl : ¬c < ' ')
      (more : Chars cs) : Chars (c :: cs)
  | letter {e d : Char} {cs : List Char} (h : simpleEscape? e = some d) (more : Chars cs) : Chars ('\\' :: e :: cs)
  | unit {a b c d : Char} {unit : Nat} {cs : List Char} (digits : Text.hexValue? [a, b, c, d] = some unit)
      (more : Chars cs) : Chars ('\\' :: 'u' :: a :: b :: c :: d :: cs)

/-- What is read may also be passed over. -/
theorem Json.Spells.chars {spelling text : List Char} (h : Spells spelling text) : Chars spelling := by
  induction h with
  | nil => exact .nil
  | plain notQuote notBackslash notControl _ ih => exact .plain notQuote notBackslash notControl ih
  | escape h _ ih =>
    cases h with
    | letter h => exact .letter h ih
    | unit digits single => exact .unit digits ih
    | pair digits digits' isHigh isLow => exact .unit digits (.unit digits' ih)

theorem Json.skipString_quote (rest : List Char) : skipString ('"' :: rest) = .ok rest := by
  rw [skipString.eq_def]
  simp

/-- A character that stands for itself is passed over in a string. -/
theorem Json.skipString_plain {c : Char} (notQuote : c ≠ '"') (notBackslash : c ≠ '\\') (notControl : ¬c < ' ')
    (cs : List Char) : skipString (c :: cs) = skipString cs := by
  rw [skipString.eq_def]
  simp [notQuote, notBackslash, notControl]

/-- An escape by a letter is passed over in a string. -/
theorem Json.skipString_letter {e d : Char} (h : simpleEscape? e = some d) (cs : List Char) :
    skipString ('\\' :: e :: cs) = skipString cs := by
  have notUnit : e ≠ 'u' := by
    rintro rfl
    cases h
  rw [skipString.eq_def]
  simp [notUnit, h]

/-- An escape by a code unit is passed over in a string, even by half of a surrogate pair. -/
theorem Json.skipString_unit {cs rest : List Char} {unit : Nat} (h : readHex4 cs = .ok (unit, rest)) :
    skipString ('\\' :: 'u' :: cs) = skipString rest := by
  rw [skipString.eq_def]
  simp only [Char.reduceEq, if_false, if_true]
  split <;> simp_all

/-- A string is passed over exactly up to the quote behind what may stand between quotes. -/
theorem Json.skipString_eq_ok_iff {cs rest : List Char} : skipString cs = .ok rest ↔
    ∃ chars, cs = chars ++ '"' :: rest ∧ Chars chars := by
  constructor
  · intro h
    fun_induction skipString cs generalizing rest with
    | case1 => cases h
    | case2 =>
      cases h
      exact ⟨[], rfl, .nil⟩
    | case3 => cases h
    | case4 => cases h
    | case5 cs unit after read _ ih =>
      obtain ⟨a, b, c, d, rfl, digits⟩ := readHex4_eq_ok_iff.1 read
      obtain ⟨chars, rfl, more⟩ := ih h
      exact ⟨'\\' :: 'u' :: a :: b :: c :: d :: chars, rfl, .unit digits more⟩
    | case6 e cs _ letter _ ih =>
      obtain ⟨d, letter⟩ := Option.isSome_iff_exists.1 letter
      obtain ⟨chars, rfl, more⟩ := ih h
      exact ⟨'\\' :: e :: chars, rfl, .letter letter more⟩
    | case7 => cases h
    | case8 => cases h
    | case9 c cs notQuote notBackslash notControl ih =>
      obtain ⟨chars, rfl, more⟩ := ih h
      exact ⟨c :: chars, rfl, .plain notQuote notBackslash notControl more⟩
  · rintro ⟨chars, rfl, h⟩
    induction h with
    | nil => exact skipString_quote rest
    | plain notQuote notBackslash notControl _ ih =>
      rw [List.cons_append, skipString_plain notQuote notBackslash notControl, ih]
    | letter h _ ih => rw [List.cons_append, List.cons_append, skipString_letter h, ih]
    | unit digits _ ih =>
      simp only [List.cons_append]
      rw [skipString_unit (readHex4_eq_ok_iff.2 ⟨_, _, _, _, rfl, digits⟩), ih]

/-- A string ends at one place only. -/
theorem Json.Chars.end_unique {chars chars' rest rest' : List Char} (h : Chars chars) (h' : Chars chars')
    (same : chars ++ '"' :: rest = chars' ++ '"' :: rest') : chars = chars' ∧ rest = rest' := by
  have skipped : skipString (chars ++ '"' :: rest) = .ok rest := skipString_eq_ok_iff.2 ⟨chars, rfl, h⟩
  rw [same, skipString_eq_ok_iff.2 ⟨chars', rfl, h'⟩] at skipped
  cases skipped
  exact ⟨List.append_cancel_right same, rfl⟩

end GateRules
