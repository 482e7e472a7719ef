import GateRules.Proofs.Encoding
import GateRules.Proofs.Spelling

/-!
# Values of JSON by their grammar

Which texts are values of JSON (`Json.Value`), told without a reader: words, strings, numbers, and enclosures with items in them
to any depth. An item is cut into the parts around its value, and the brackets, commas and colons are in one place for lists and
objects alike (`Json.Enclosure.text`). A value is passed over as a whole wherever it stands (`Json.Value.skipValue`), so that a
text falls into values in one way.
-/

namespace GateRules

/-! ## White space -/

/-- Nothing but white space. -/
def Json.Spaces (cs : List Char) : Prop := ∀ c ∈ cs, isSpace c = true

theorem Json.Spaces.nil : Spaces [] := fun _ h => absurd h List.not_mem_nil

theorem Json.Spaces.append {before more : List Char} (h : Spaces before) (h' : Spaces more) : Spaces (before ++ more) := by
  intro c hc
  exact (List.mem_append.1 hc).elim (h c) (h' c)

/-- White space in front is passed over with the white space behind it. -/
theorem Json.Spaces.skipSpace_append {before : List Char} (h : Spaces before) (rest : List Char) :
    skipSpace (before ++ rest) = skipSpace rest := List.dropWhile_append_of_pos h

/-- Nothing is passed over in front of a character that is no white space. -/
theorem Json.skipSpace_cons {c : Char} (h : isSpace c = false) (rest : List Char) : skipSpace (c :: rest) = c :: rest :=
  List.dropWhile_cons_of_neg (by simp [h])

/-- A text is white space and then what is left of it. -/
theorem Json.exists_spaces (cs : List Char) : ∃ before, Spaces before ∧ cs = before ++ skipSpace cs := by
  refine ⟨cs.takeWhile isSpace, ?_, (List.takeWhile_append_dropWhile (p := isSpace)).symm⟩
  intro c h
  exact List.all_eq_true.1 List.all_takeWhile c h

/-- What may stand behind a value: white space, a comma, a closing bracket, or nothing. -/
def Json.Follows (rest : List Char) : Prop := ∀ c more, rest = c :: more → isSpace c = true ∨ c ∈ [',', ']', '\x7d']

/-- White space may be put in front of what stands behind a value. -/
theorem Json.Follows.append {before rest : List Char} (h : Follows rest) (spaces : Spaces before) :
    Follows (before ++ rest) := by
  intro c more hc
  cases before with
  | nil => exact h c more hc
  | cons b before =>
    cases hc
    exact .inl (spaces c List.mem_cons_self)

theorem Json.Spaces.follows {cs : List Char} (h : Spaces cs) : Follows cs := by
  rw [← List.append_nil cs]
  refine Follows.append ?_ h
  intro c more hc
  cases hc

/-! ## Numbers -/

/-- At least one digit. -/
def Json.Digits (cs : List Char) : Prop := cs ≠ [] ∧ ∀ c ∈ cs, c.isDigit = true

/-- The digits before the point: a zero, or digits of which the first is no zero. -/
inductive Json.Whole : List Char → Prop
  | zero : Whole ['0']
  | digits {c : Char} {cs : List Char} (h : Digits (c :: cs)) (notZero : c ≠ '0') : Whole (c :: cs)

/-- The point with the digits behind it, if there are any. -/
inductive Json.Fraction : List Char → Prop
  | none : Fraction []
  | digits {cs : List Char} (h : Digits cs) : Fraction ('.' :: cs)

/-- The exponent, if there is one. -/
inductive Json.Exponent : List Char → Prop
  | none : Exponent []
  | digits {e : Char} {sign cs : List Char} (letter : e = 'e' ∨ e = 'E') (signed : sign ∈ [[], ['+'], ['-']])
      (h : Digits cs) : Exponent (e :: (sign ++ cs))

/-- Digits end before this text. -/
def Json.NoDigit (rest : List Char) : Prop := ∀ c more, rest = c :: more → c.isDigit = false

/-- Digits are passed over up to a text that starts with none. -/
theorem Json.Digits.skipDigits {cs rest : List Char} (h : Digits cs) (ended : NoDigit rest) :
    skipDigits (cs ++ rest) = .ok rest := by
  obtain ⟨notEmpty, digits⟩ := h
  have started : atDigit (cs ++ rest) = true := by
    cases cs with
    | nil => exact absurd rfl notEmpty
    | cons c cs => exact digits c List.mem_cons_self
  have left : (cs ++ rest).dropWhile Char.isDigit = rest := by
    rw [List.dropWhile_append_of_pos digits]
    cases rest with
    | nil => rfl
    | cons c rest => exact List.dropWhile_cons_of_neg (by simp [ended c rest rfl])
  rw [Json.skipDigits, if_pos started, left]

/-- What stands behind a value starts with no digit. -/
theorem Json.Follows.noDigit {rest : List Char} (h : Follows rest) : NoDigit rest := by
  intro c more hc
  rcases h c more hc with space | mark
  · simp only [isSpace, Bool.or_eq_true, beq_iff_eq] at space
    rcases space with ((rfl | rfl) | rfl) | rfl <;> rfl
  · simp only [List.mem_cons, List.not_mem_nil, or_false] at mark
    rcases mark with rfl | rfl | rfl <;> rfl

/-- What stands behind a value is no exponent. -/
theorem Json.Follows.skipExponent {rest : List Char} (h : Follows rest) : skipExponent rest = .ok rest := by
  cases rest with
  | nil => rfl
  | cons c rest =>
    have noLetter : ¬(c = 'e' ∨ c = 'E') := by
      rintro (rfl | rfl) <;> exact absurd (h _ _ rfl) (by decide)
    simp only [Json.skipExponent, if_neg noLetter]

/-- A number is passed over up to what may stand behind a value. -/
theorem Json.Exponent.skipExponent {cs rest : List Char} (h : Exponent cs) (follows : Follows rest) :
    skipExponent (cs ++ rest) = .ok rest := by
  cases h with
  | none => exact follows.skipExponent
  | @digits e sign cs letter signed h =>
    have skipped := h.skipDigits follows.noDigit
    rw [List.cons_append, List.append_assoc, Json.skipExponent.eq_def]
    simp only [if_pos letter]
    simp only [List.mem_cons, List.not_mem_nil, or_false] at signed
    rcases signed with rfl | rfl | rfl
    · split
      · rename_i digit
        cases cs with
        | nil => exact absurd rfl h.1
        | cons c cs =>
          cases digit
          exact absurd (h.2 _ List.mem_cons_self) (by decide)
      · rename_i digit
        cases cs with
        | nil => exact absurd rfl h.1
        | cons c cs =>
          cases digit
          exact absurd (h.2 _ List.mem_cons_self) (by decide)
      · exact skipped
    · exact skipped
    · exact skipped

/-- Neither an exponent nor what stands behind a value starts with a digit. -/
theorem Json.Exponent.noDigit {cs rest : List Char} (h : Exponent cs) (follows : Follows rest) : NoDigit (cs ++ rest) := by
  cases h with
  | none => exact follows.noDigit
  | digits letter signed h =>
    intro c more hc
    cases hc
    rcases letter with rfl | rfl <;> rfl

/-- Neither an exponent nor what stands behind a value starts with a point. -/
theorem Json.Exponent.noPoint {cs rest : List Char} (h : Exponent cs) (follows : Follows rest) (more : List Char) :
    cs ++ rest ≠ '.' :: more := by
  intro hc
  cases h with
  | none => exact absurd (follows _ _ hc) (by decide)
  | digits letter signed h =>
    cases hc
    rcases letter with h | h <;> cases h

/-- The digits before a point are passed over up to a text that starts with none. -/
theorem Json.Whole.skipWhole {cs rest : List Char} (h : Whole cs) (ended : NoDigit rest) :
    skipWhole (cs ++ rest) = .ok rest := by
  cases h with
  | zero =>
    have noMore : atDigit rest = false := by
      cases rest with
      | nil => rfl
      | cons c rest => exact ended c rest rfl
    simp only [List.cons_append, List.nil_append, Json.skipWhole, noMore]
    rfl
  | digits h notZero =>
    have skipped := h.skipDigits ended
    rw [Json.skipWhole.eq_def]
    split
    · rename_i zero
      cases zero
      exact absurd rfl notZero
    · exact skipped

/-- A number is passed over up to what may stand behind a value. -/
theorem Json.skipNumber_append {whole fraction exponent rest : List Char} (hw : Whole whole) (hf : Fraction fraction)
    (he : Exponent exponent) (follows : Follows rest) :
    skipNumber (whole ++ (fraction ++ (exponent ++ rest))) = .ok rest := by
  have exponentSkipped := he.skipExponent follows
  cases hf with
  | none =>
    have wholeSkipped := hw.skipWhole (he.noDigit follows)
    rw [List.nil_append, skipNumber, wholeSkipped]
    split
    · rename_i h
      cases h
    · rename_i h
      exact absurd (Except.ok.inj h) (he.noPoint follows _)
    · rename_i h
      cases h
      exact exponentSkipped
  | @digits cs hd =>
    have ended : NoDigit ('.' :: (cs ++ (exponent ++ rest))) := by
      intro c more hc
      cases hc
      rfl
    rw [List.cons_append, skipNumber, hw.skipWhole ended]
    simp only [hd.skipDigits (he.noDigit follows), exponentSkipped]

/-! ## Items and enclosures -/

/-- An item of a list or of an object, cut into what leads to its value, which is nothing in a list and a key with a colon in an
object, the value with white space around it, and nothing else. -/
structure Json.Item where
  lead : List Char
  before : List Char
  value : List Char
  behind : List Char

/-- An item as it is written. -/
def Json.Item.text (i : Item) : List Char := i.lead ++ (i.before ++ (i.value ++ i.behind))

theorem Json.Item.text_append (i : Item) (rest : List Char) :
    i.text ++ rest = i.lead ++ (i.before ++ (i.value ++ (i.behind ++ rest))) := by
  simp only [text, List.append_assoc]

/-- What leads to the value of a member with this spelling of a key. -/
def Json.KeyLead (key lead : List Char) : Prop :=
  ∃ before gap, Spaces before ∧ Spaces gap ∧ lead = before ++ '"' :: (key ++ '"' :: (gap ++ [':']))

/-- What may lead to a value in an enclosure. -/
def Json.Enclosure.Leads : Enclosure → List Char → Prop
  | .list, lead => lead = []
  | .object, lead => ∃ key, Chars key ∧ KeyLead key lead

/-- An item has the form of one in an enclosure, whatever its value is. -/
structure Json.Item.Shaped (e : Enclosure) (i : Item) : Prop where
  lead : e.Leads i.lead
  before : Spaces i.before
  behind : Spaces i.behind

/-- An enclosure behind its opening bracket: white space, the items with commas between them, and the closing bracket. -/
def Json.Enclosure.inside (e : Enclosure) (pad : List Char) (items : List Item) : List Char :=
  pad ++ ([','].intercalate (items.map Item.text) ++ [e.closing])

/-- An enclosure of these items. -/
def Json.Enclosure.text (e : Enclosure) (pad : List Char) (items : List Item) : List Char := e.opening :: e.inside pad items

/-- What is left of an enclosure behind an item of it: the items to come, with a comma before each, and the closing bracket. -/
def Json.Enclosure.remainder (e : Enclosure) (items : List Item) (rest : List Char) : List Char :=
  items.flatMap (fun i => ',' :: i.text) ++ e.closing :: rest

theorem Json.Enclosure.remainder_nil (e : Enclosure) (rest : List Char) : e.remainder [] rest = e.closing :: rest := rfl

/-- Behind an item, an enclosure has a comma and the next item left. -/
theorem Json.Enclosure.remainder_cons (e : Enclosure) (i : Item) (items : List Item) (rest : List Char) :
    e.remainder (i :: items) rest = ',' :: (i.text ++ e.remainder items rest) := by
  simp [remainder]

/-- An enclosure without items is white space in brackets. -/
theorem Json.Enclosure.inside_nil_append (e : Enclosure) (pad rest : List Char) :
    e.inside pad [] ++ rest = pad ++ e.closing :: rest := by
  simp [inside]

/-- An enclosure with items has the first of them behind white space, and the remainder behind it. -/
theorem Json.Enclosure.inside_cons_append (e : Enclosure) (pad : List Char) (i : Item) (items : List Item)
    (rest : List Char) : e.inside pad (i :: items) ++ rest = pad ++ (i.text ++ e.remainder items rest) := by
  rw [inside, List.map_cons, intercalate_cons]
  simp [remainder, List.flatMap_map]

/-- What is left of an enclosure may stand behind a value. -/
theorem Json.Enclosure.follows_remainder (e : Enclosure) (items : List Item) (rest : List Char) :
    Follows (e.remainder items rest) := by
  intro c more hc
  cases items with
  | nil =>
    cases hc
    cases e <;> exact .inr (by decide)
  | cons i items =>
    rw [remainder_cons] at hc
    cases hc
    exact .inr (by decide)

/-! ## Values -/

/-- A text that is a value of JSON. -/
inductive Json.Value : List Char → Prop
  | nullWord : Value ['n', 'u', 'l', 'l']
  | trueWord : Value ['t', 'r', 'u', 'e']
  | falseWord : Value ['f', 'a', 'l', 's', 'e']
  | string {chars : List Char} (h : Chars chars) : Value ('"' :: (chars ++ ['"']))
  | number {sign whole fraction exponent : List Char} (signed : sign = [] ∨ sign = ['-']) (hw : Whole whole)
      (hf : Fraction fraction) (he : Exponent exponent) : Value (sign ++ (whole ++ (fraction ++ exponent)))
  | enclosure {e : Enclosure} {pad : List Char} {items : List Item} (spaces : Spaces pad)
      (shaped : ∀ i ∈ items, i.Shaped e) (values : ∀ i ∈ items, Value i.value) : Value (e.text pad items)

/-- An item of an enclosure with a value in it. -/
structure Json.Item.WellFormed (e : Enclosure) (i : Item) : Prop extends i.Shaped e where
  isValue : Value i.value

/-- An enclosure of well-formed items is a value. -/
theorem Json.value_text {e : Enclosure} {pad : List Char} (spaces : Spaces pad) {items : List Item}
    (h : ∀ i ∈ items, i.WellFormed e) : Value (e.text pad items) :=
  .enclosure spaces (fun i hi => (h i hi).toShaped) fun i hi => (h i hi).isValue

/-- How a value may start: not with white space, nor with punctuation that stands between values or behind them. -/
def Json.Starts (c : Char) : Prop := isSpace c = false ∧ c ∉ [',', ':', ']', '\x7d']

theorem Json.Whole.starts {cs : List Char} (h : Whole cs) : ∃ c more, cs = c :: more ∧ c.isDigit = true := by
  cases h with
  | zero => exact ⟨'0', [], rfl, rfl⟩
  | digits h notZero => exact ⟨_, _, rfl, h.2 _ List.mem_cons_self⟩

theorem Json.starts_of_isDigit {c : Char} (h : c.isDigit = true) : Starts c := by
  constructor
  · rw [← Bool.not_eq_true]
    intro space
    simp only [isSpace, Bool.or_eq_true, beq_iff_eq] at space
    rcases space with ((rfl | rfl) | rfl) | rfl <;> cases h
  · intro mark
    simp only [List.mem_cons, List.not_mem_nil, or_false] at mark
    rcases mark with rfl | rfl | rfl | rfl <;> cases h

theorem Json.Value.starts {cs : List Char} (h : Value cs) : ∃ c more, cs = c :: more ∧ Starts c := by
  cases h with
  | nullWord => exact ⟨_, _, rfl, by decide, by decide⟩
  | trueWord => exact ⟨_, _, rfl, by decide, by decide⟩
  | falseWord => exact ⟨_, _, rfl, by decide, by decide⟩
  | string h => exact ⟨_, _, rfl, by decide, by decide⟩
  | number signed hw hf he =>
    rcases signed with rfl | rfl
    · obtain ⟨c, more, rfl, digit⟩ := hw.starts
      exact ⟨c, _, rfl, starts_of_isDigit digit⟩
    · exact ⟨_, _, rfl, by decide, by decide⟩
  | @enclosure e pad items _ _ _ => cases e <;> exact ⟨_, _, rfl, by decide, by decide⟩

/-! ## Values that are passed over -/

/-- White space in front of a value makes no difference. -/
theorem Json.Spaces.skipValue_append {before : List Char} (h : Spaces before) (within : List Enclosure) (rest : List Char) :
    skipValue within (before ++ rest) = skipValue within rest := by
  rw [skipValue_eq, skipValue_eq, h.skipSpace_append]

/-- White space behind an opening bracket makes no difference. -/
theorem Json.Spaces.skipFirst_append {before : List Char} (h : Spaces before) (e : Enclosure) (within : List Enclosure)
    (rest : List Char) : skipFirst e within (before ++ rest) = skipFirst e within rest := by
  rw [skipFirst_eq, skipFirst_eq, h.skipSpace_append]

/-- White space behind an item makes no difference. -/
theorem Json.Spaces.skipAfter_append {before : List Char} (h : Spaces before) (e : Enclosure) (within : List Enclosure)
    (rest : List Char) : skipAfter (e :: within) (before ++ rest) = skipAfter (e :: within) rest := by
  rw [skipAfter_eq, skipAfter_eq, h.skipSpace_append]

/-- An opening bracket is passed over as the start of its enclosure. -/
theorem Json.skipValue_opening (e : Enclosure) (within : List Enclosure) (rest : List Char) :
    skipValue within (e.opening :: rest) = skipFirst e within rest := by
  rw [skipValue_eq]
  cases e <;> rfl

/-- A value without values in it is passed over, and then the ends of its enclosures. -/
theorem Json.skipValue_scalar {c : Char} {cs rest : List Char} (space : isSpace c = false) (notList : c ≠ '[')
    (notObject : c ≠ '\x7b') (h : skipScalar c cs = .ok rest) (within : List Enclosure) :
    skipValue within (c :: cs) = skipAfter within rest := by
  rw [skipValue_eq, skipSpace_cons space]
  simp only [if_neg notList, if_neg notObject, h]

theorem Json.Enclosure.isSpace_closing (e : Enclosure) : isSpace e.closing = false := by
  cases e <;> rfl

/-- An enclosure may be closed right where it was opened. -/
theorem Json.skipFirst_closing (e : Enclosure) (within : List Enclosure) (rest : List Char) :
    skipFirst e within (e.closing :: rest) = skipAfter within rest := by
  rw [skipFirst_eq, skipSpace_cons e.isSpace_closing]
  exact if_pos rfl

/-- An enclosure may be closed behind an item. -/
theorem Json.skipAfter_closing (e : Enclosure) (within : List Enclosure) (rest : List Char) :
    skipAfter (e :: within) (e.closing :: rest) = skipAfter within rest := by
  rw [skipAfter_eq, skipSpace_cons e.isSpace_closing]
  exact if_pos rfl

/-- Behind a comma the value of the next item is passed over. -/
theorem Json.skipAfter_comma {e : Enclosure} {cs here : List Char} (h : e.enter cs = .ok here) (within : List Enclosure) :
    skipAfter (e :: within) (',' :: cs) = skipValue (e :: within) here := by
  have notClosing : ',' ≠ e.closing := by cases e <;> decide
  rw [skipAfter_eq, skipSpace_cons rfl]
  simp only [if_neg notClosing, if_true, h]

/-- A mark of punctuation is read behind white space. -/
theorem Json.Spaces.run_mark {before : List Char} (h : Spaces before) (c : Char) (space : isSpace c = false)
    (rest : List Char) : (mark c).run (before ++ c :: rest) = .ok ((), rest) := by
  have here : skipSpace (before ++ c :: rest) = c :: rest := by rw [h.skipSpace_append, skipSpace_cons space]
  simp only [mark, Reader.mark, Reader.byFirst, here, if_true]

/-- Another character in the place of a mark is refused. -/
theorem Json.Spaces.run_mark_of_ne {before : List Char} (h : Spaces before) {c d : Char} (space : isSpace d = false)
    (other : d ≠ c) (rest : List Char) : (mark c).run (before ++ d :: rest) = .error .garbled := by
  have here : skipSpace (before ++ d :: rest) = d :: rest := by rw [h.skipSpace_append, skipSpace_cons space]
  simp only [mark, Reader.mark, Reader.byFirst, here, if_neg other]

/-- White space in front of a key may be cut off. -/
theorem Json.KeyLead.exists_quote {key lead : List Char} (h : KeyLead key lead) :
    ∃ before tail, Spaces before ∧ lead = before ++ '"' :: tail ∧ KeyLead key ('"' :: tail) := by
  obtain ⟨before, gap, before_spaces, gap_spaces, rfl⟩ := h
  exact ⟨before, _, before_spaces, rfl, [], gap, .nil, gap_spaces, rfl⟩

/-- A key is passed over with the colon behind it. -/
theorem Json.KeyLead.skipKey {key lead : List Char} (h : KeyLead key lead) (chars : Chars key) (rest : List Char) :
    skipKey (lead ++ rest) = .ok rest := by
  obtain ⟨before, gap, before_spaces, gap_spaces, rfl⟩ := h
  have keySkipped : skipString (key ++ '"' :: (gap ++ ':' :: rest)) = .ok (gap ++ ':' :: rest) :=
    skipString_eq_ok_iff.2 ⟨key, rfl, chars⟩
  have colon := gap_spaces.run_mark ':' rfl rest
  have start : skipSpace (before ++ '"' :: (key ++ '"' :: (gap ++ ':' :: rest))) =
      '"' :: (key ++ '"' :: (gap ++ ':' :: rest)) := before_spaces.skipSpace_append _
  have text : before ++ '"' :: (key ++ '"' :: (gap ++ [':'])) ++ rest =
      before ++ '"' :: (key ++ '"' :: (gap ++ ':' :: rest)) := by simp
  rw [text, Json.skipKey, start]
  simp only [if_true, keySkipped, colon]

/-- What leads to the value of an item is passed over. -/
theorem Json.Item.Shaped.enter {e : Enclosure} {i : Item} (h : i.Shaped e) (rest : List Char) :
    e.enter (i.text ++ rest) = .ok (i.before ++ (i.value ++ (i.behind ++ rest))) := by
  rw [i.text_append]
  have lead := h.lead
  cases e with
  | list =>
    rw [show i.lead = [] from lead]
    rfl
  | object =>
    obtain ⟨key, chars, lead⟩ := lead
    exact lead.skipKey chars _

/-- The value of a first item is passed over if the enclosure is not closed. -/
theorem Json.skipFirst_of_enter {e : Enclosure} {c : Char} {cs here : List Char} (space : isSpace c = false)
    (notClosing : c ≠ e.closing) (h : e.enter (c :: cs) = .ok here) (within : List Enclosure) :
    skipFirst e within (c :: cs) = skipValue (e :: within) here := by
  rw [skipFirst_eq, skipSpace_cons space]
  simp only [if_neg notClosing, h]

/-- The first item of an enclosure is passed over like any value in the enclosure. -/
theorem Json.Item.Shaped.skipFirst {e : Enclosure} {i : Item} (h : i.Shaped e) (value : Value i.value)
    (within : List Enclosure) (rest : List Char) :
    Json.skipFirst e within (i.text ++ rest) = skipValue (e :: within) (i.value ++ (i.behind ++ rest)) := by
  rw [i.text_append]
  have lead := h.lead
  cases e with
  | list =>
    obtain ⟨c, more, hc, space, mark⟩ := value.starts
    have notClosing : c ≠ ']' := by
      rintro rfl
      exact mark (by decide)
    rw [show i.lead = [] from lead, List.nil_append, h.before.skipFirst_append, hc, List.cons_append]
    exact skipFirst_of_enter (e := .list) space notClosing rfl within
  | object =>
    obtain ⟨key, chars, lead⟩ := lead
    obtain ⟨spaces, tail, pad, hl, quoted⟩ := lead.exists_quote
    have enter : Enclosure.object.enter ('"' :: (tail ++ (i.before ++ (i.value ++ (i.behind ++ rest))))) =
        .ok (i.before ++ (i.value ++ (i.behind ++ rest))) := quoted.skipKey chars _
    rw [hl, List.append_assoc, pad.skipFirst_append, List.cons_append,
      skipFirst_of_enter rfl (by decide) enter, h.before.skipValue_append]

theorem Json.skipScalar_digit {c : Char} (h : c.isDigit = true) (cs : List Char) :
    skipScalar c cs = skipNumber (c :: cs) := by
  unfold skipScalar
  split
  · cases h
  · cases h
  · cases h
  · cases h
  · cases h
  · exact if_pos h

/-- Behind a value, the other items of its enclosure are passed over with the enclosure. -/
theorem Json.skipAfter_remainder {e : Enclosure} {items : List Item} (shaped : ∀ i ∈ items, i.Shaped e)
    (passed : ∀ i ∈ items, ∀ within rest, Follows rest → skipValue within (i.value ++ rest) = skipAfter within rest)
    (within : List Enclosure) (rest : List Char) :
    skipAfter (e :: within) (e.remainder items rest) = skipAfter within rest := by
  induction items with
  | nil => exact skipAfter_closing e within rest
  | cons i items ih =>
    obtain ⟨first, shaped⟩ := List.forall_mem_cons.1 shaped
    obtain ⟨here, passed⟩ := List.forall_mem_cons.1 passed
    have follows := (e.follows_remainder items rest).append first.behind
    rw [e.remainder_cons, skipAfter_comma (first.enter _), first.before.skipValue_append, here _ _ follows,
      first.behind.skipAfter_append, ih shaped passed]

/-- A value is passed over as a whole wherever it stands. -/
theorem Json.Value.skipValue_append {cs : List Char} (h : Value cs) (within : List Enclosure) {rest : List Char}
    (follows : Follows rest) : skipValue within (cs ++ rest) = skipAfter within rest := by
  induction h generalizing within rest with
  | nullWord => exact skipValue_scalar rfl (by decide) (by decide) rfl within
  | trueWord => exact skipValue_scalar rfl (by decide) (by decide) rfl within
  | falseWord => exact skipValue_scalar rfl (by decide) (by decide) rfl within
  | @string chars h =>
    have skipped : skipString (chars ++ '"' :: rest) = .ok rest := skipString_eq_ok_iff.2 ⟨chars, rfl, h⟩
    rw [List.cons_append, List.append_assoc]
    exact skipValue_scalar (c := '"') rfl (by decide) (by decide) skipped within
  | @number sign whole fraction exponent signed hw hf he =>
    have skipped := skipNumber_append hw hf he follows
    simp only [List.append_assoc]
    rcases signed with rfl | rfl
    · obtain ⟨c, more, rfl, digit⟩ := hw.starts
      obtain ⟨space, -⟩ := starts_of_isDigit digit
      have notOpening : c ≠ '[' ∧ c ≠ '\x7b' := by
        constructor <;> rintro rfl <;> cases digit
      exact skipValue_scalar space notOpening.1 notOpening.2 ((skipScalar_digit digit _).trans skipped) within
    · exact skipValue_scalar (c := '-') rfl (by decide) (by decide) skipped within
  | @enclosure e pad items spaces shaped values ih =>
    rw [Enclosure.text, List.cons_append, skipValue_opening]
    cases items with
    | nil => rw [e.inside_nil_append, spaces.skipFirst_append, skipFirst_closing]
    | cons i items =>
      obtain ⟨first, more⟩ := List.forall_mem_cons.1 shaped
      obtain ⟨value, -⟩ := List.forall_mem_cons.1 values
      obtain ⟨here, passed⟩ := List.forall_mem_cons.1 ih
      have behind := (e.follows_remainder items rest).append first.behind
      rw [e.inside_cons_append, spaces.skipFirst_append, first.skipFirst value, here _ behind, first.behind.skipAfter_append]
      exact skipAfter_remainder more (fun i hi within rest follows => passed i hi within follows) within rest

end GateRules
