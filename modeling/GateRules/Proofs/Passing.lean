import GateRules.Proofs.Values
import Mathlib.Data.List.TakeWhile

/-!
# Nothing but values is passed over

What is passed over is a value by the grammar, with the white space in front of it and the end of all enclosures that it stands in
(`Json.exists_of_skipValue`). What is left of an enclosure that was opened is told in one way, behind its bracket as behind an
item (`Json.Enclosure.Ends`), and it grows by one item at a time (`Json.Enclosure.Ends.item`).
-/

namespace GateRules

/-! ## White space, words and numbers -/

/-- What is passed over in front of the first character is white space. -/
theorem Json.exists_of_skipSpace {cs rest : List Char} {c : Char} (h : skipSpace cs = c :: rest) :
    ∃ before, Spaces before ∧ cs = before ++ c :: rest := by
  obtain ⟨before, spaces, same⟩ := exists_spaces cs
  rw [h] at same
  exact ⟨before, spaces, same⟩

/-- A mark of punctuation is read with the white space in front of it. -/
theorem Json.exists_of_run_mark {cs rest : List Char} {c : Char} (h : (mark c).run cs = .ok ((), rest)) :
    ∃ before, Spaces before ∧ cs = before ++ c :: rest := by
  simp only [mark, Reader.mark, Reader.byFirst] at h
  split at h
  · cases h
  · rename_i hs
    split at h
    · rename_i same
      cases h
      exact exists_of_skipSpace (same ▸ hs)
    · cases h

theorem Json.eq_of_readWord {word cs rest : List Char} (h : readWord word cs = .ok rest) : cs = word ++ rest := by
  fun_induction readWord word cs with
  | case1 =>
    cases h
    rfl
  | case2 => cases h
  | case3 w word cs ih => rw [List.cons_append, ← ih h]
  | case4 => cases h

/-- Digits are passed over. -/
theorem Json.exists_of_skipDigits {cs rest : List Char} (h : skipDigits cs = .ok rest) :
    ∃ digits, Digits digits ∧ cs = digits ++ rest := by
  unfold skipDigits at h
  split at h
  · rename_i started
    cases h
    refine ⟨cs.takeWhile Char.isDigit, ⟨?_, ?_⟩, List.takeWhile_append_dropWhile.symm⟩
    · cases cs with
      | nil => cases started
      | cons c cs =>
        have digit : c.isDigit = true := started
        rw [List.takeWhile_cons_of_pos digit]
        exact List.cons_ne_nil _ _
    · intro c hc
      exact List.all_eq_true.1 List.all_takeWhile c hc
  · cases h

/-- The digits before a point are passed over, and only one zero may lead. -/
theorem Json.exists_of_skipWhole {cs rest : List Char} (h : skipWhole cs = .ok rest) :
    ∃ whole, Whole whole ∧ cs = whole ++ rest := by
  unfold skipWhole at h
  split at h
  · split at h
    · cases h
    · cases h
      exact ⟨['0'], .zero, rfl⟩
  · rename_i noZero
    obtain ⟨digits, hd, rfl⟩ := exists_of_skipDigits h
    cases digits with
    | nil => exact absurd rfl hd.1
    | cons c digits =>
      refine ⟨c :: digits, .digits hd ?_, rfl⟩
      rintro rfl
      exact noZero _ rfl

/-- An exponent is passed over, or there is none. -/
theorem Json.exists_of_skipExponent {cs rest : List Char} (h : skipExponent cs = .ok rest) :
    ∃ exponent, Exponent exponent ∧ cs = exponent ++ rest := by
  unfold skipExponent at h
  split at h
  · rename_i e cs
    split at h
    · rename_i letter
      split at h
      · obtain ⟨digits, hd, rfl⟩ := exists_of_skipDigits h
        exact ⟨e :: (['+'] ++ digits), .digits letter (by simp) hd, rfl⟩
      · obtain ⟨digits, hd, rfl⟩ := exists_of_skipDigits h
        exact ⟨e :: (['-'] ++ digits), .digits letter (by simp) hd, rfl⟩
      · obtain ⟨digits, hd, rfl⟩ := exists_of_skipDigits h
        exact ⟨e :: ([] ++ digits), .digits letter (by simp) hd, rfl⟩
    · cases h
      exact ⟨[], .none, rfl⟩
  · cases h
    exact ⟨[], .none, rfl⟩

/-- What is passed over as a number is one, with a sign in front of it or without. -/
theorem Json.exists_of_skipNumber {cs rest : List Char} (h : skipNumber cs = .ok rest) :
    ∃ number, (∀ sign, sign = [] ∨ sign = ['-'] → Value (sign ++ number)) ∧ cs = number ++ rest := by
  unfold skipNumber at h
  split at h
  · cases h
  · rename_i skipped
    obtain ⟨whole, hw, rfl⟩ := exists_of_skipWhole skipped
    split at h
    · cases h
    · rename_i skipped
      obtain ⟨digits, hd, rfl⟩ := exists_of_skipDigits skipped
      obtain ⟨exponent, he, rfl⟩ := exists_of_skipExponent h
      refine ⟨whole ++ ('.' :: digits ++ exponent), ?_, by simp⟩
      intro sign signed
      exact .number signed hw (.digits hd) he
  · rename_i skipped
    obtain ⟨whole, hw, rfl⟩ := exists_of_skipWhole skipped
    obtain ⟨exponent, he, rfl⟩ := exists_of_skipExponent h
    refine ⟨whole ++ ([] ++ exponent), ?_, by simp⟩
    intro sign signed
    exact .number signed hw .none he

/-- What is passed over without a value in it is a value. -/
theorem Json.exists_of_skipScalar {c : Char} {cs rest : List Char} (h : skipScalar c cs = .ok rest) :
    ∃ more, Value (c :: more) ∧ cs = more ++ rest := by
  unfold skipScalar at h
  split at h
  · exact ⟨_, .nullWord, eq_of_readWord h⟩
  · exact ⟨_, .trueWord, eq_of_readWord h⟩
  · exact ⟨_, .falseWord, eq_of_readWord h⟩
  · obtain ⟨chars, rfl, hc⟩ := skipString_eq_ok_iff.1 h
    exact ⟨chars ++ ['"'], .string hc, by simp⟩
  · obtain ⟨number, value, rfl⟩ := exists_of_skipNumber h
    exact ⟨number, value ['-'] (.inr rfl), rfl⟩
  · split at h
    · obtain ⟨number, value, same⟩ := exists_of_skipNumber h
      have unsigned := value [] (.inl rfl)
      obtain ⟨d, more, rfl, -⟩ := unsigned.starts
      cases same
      exact ⟨more, unsigned, rfl⟩
    · cases h

/-! ## What is left of enclosures -/

/-- What stands in front of an item: a comma, unless the item is the first. -/
def Json.front (isFirst : Bool) : List Char := if isFirst then [] else [',']

/-- An enclosure comes to its end, and this rest is behind it. What is left of it starts behind its opening bracket, or behind an
item of it. -/
inductive Json.Enclosure.Ends (e : Enclosure) : Bool → List Char → List Char → Prop
  | opened {pad : List Char} {items : List Item} {rest : List Char} (spaces : Spaces pad)
      (wellFormed : ∀ i ∈ items, i.WellFormed e) : Ends e true (e.inside pad items ++ rest) rest
  | behind {pad : List Char} {items : List Item} {rest : List Char} (spaces : Spaces pad)
      (wellFormed : ∀ i ∈ items, i.WellFormed e) : Ends e false (pad ++ e.remainder items rest) rest

section

variable {e : Json.Enclosure} {isFirst : Bool} {pad cs rest : List Char}

/-- An enclosure ends with white space and its closing bracket. -/
theorem Json.Spaces.ends (spaces : Spaces pad) (e : Enclosure) (isFirst : Bool) (rest : List Char) :
    e.Ends isFirst (pad ++ e.closing :: rest) rest := by
  have nothing : ∀ i ∈ [], Item.WellFormed e i := fun i hi => absurd hi List.not_mem_nil
  cases isFirst with
  | true =>
    rw [← e.inside_nil_append]
    exact .opened spaces nothing
  | false => exact .behind spaces nothing

/-- An item may be put in front of what is left of an enclosure. -/
theorem Json.Enclosure.Ends.item {lead before text : List Char} (more : e.Ends false cs rest) (spaces : Spaces pad)
    (isFirst : Bool) (leads : e.Leads lead) (before_spaces : Spaces before) (value : Value text) :
    e.Ends isFirst (pad ++ (front isFirst ++ (lead ++ (before ++ (text ++ cs))))) rest := by
  cases more with
  | @behind behind items _ behind_spaces wellFormed =>
    have first : Item.WellFormed e ⟨lead, before, text, behind⟩ := ⟨⟨leads, before_spaces, behind_spaces⟩, value⟩
    have all := List.forall_mem_cons.2 ⟨first, wellFormed⟩
    have written := Item.text_append ⟨lead, before, text, behind⟩ (e.remainder items rest)
    cases isFirst with
    | true =>
      have ends : e.Ends true (e.inside pad (_ :: items) ++ rest) rest := .opened spaces all
      rwa [inside_cons_append, written] at ends
    | false =>
      have ends : e.Ends false (pad ++ e.remainder (_ :: items) rest) rest := .behind spaces all
      rwa [remainder_cons, written] at ends

/-- An enclosure that was opened and comes to its end is a value. -/
theorem Json.Enclosure.Ends.exists_value (h : e.Ends true cs rest) :
    ∃ more, Value (e.opening :: more) ∧ cs = more ++ rest := by
  cases h with
  | opened spaces wellFormed => exact ⟨_, value_text spaces wellFormed, rfl⟩

/-- The enclosures that a value stands in come to their end, innermost first. -/
inductive Json.EndAll : List Enclosure → List Char → List Char → Prop
  | nil {cs : List Char} : EndAll [] cs cs
  | cons {e : Enclosure} {within : List Enclosure} {cs after rest : List Char} (first : e.Ends false cs after)
      (more : EndAll within after rest) : EndAll (e :: within) cs rest

/-- A text is white space, a value, and this rest. -/
def Json.ValueThen (cs rest : List Char) : Prop :=
  ∃ before text, Spaces before ∧ Value text ∧ cs = before ++ (text ++ rest)

theorem Json.Value.valueThen {text : List Char} (h : Value text) (rest : List Char) : ValueThen (text ++ rest) rest :=
  ⟨[], text, .nil, h, rfl⟩

theorem Json.Spaces.valueThen (spaces : Spaces pad) (h : ValueThen cs rest) : ValueThen (pad ++ cs) rest := by
  obtain ⟨before, text, more, value, rfl⟩ := h
  exact ⟨pad ++ before, text, spaces.append more, value, by simp⟩

/-! ## Values that are passed over -/

/-- What leads to the value of an item is what is passed over in front of the value. -/
theorem Json.Enclosure.exists_of_enter (h : e.enter cs = .ok rest) : ∃ lead, e.Leads lead ∧ cs = lead ++ rest := by
  cases e with
  | list =>
    cases h
    exact ⟨[], rfl, rfl⟩
  | object =>
    simp only [enter, skipKey] at h
    split at h
    · cases h
    rename_i start
    split at h
    · rename_i isQuote
      subst isQuote
      split at h
      · cases h
      rename_i skipped
      split at h
      · cases h
      rename_i colon
      cases h
      obtain ⟨before, spaces, rfl⟩ := exists_of_skipSpace start
      obtain ⟨key, rfl, chars⟩ := skipString_eq_ok_iff.1 skipped
      obtain ⟨gap, gap_spaces, rfl⟩ := exists_of_run_mark colon
      exact ⟨before ++ '"' :: (key ++ '"' :: (gap ++ [':'])), ⟨key, chars, before, gap, spaces, gap_spaces, rfl⟩, by simp⟩
    · cases h

/-- In front of an item stands what is left of its enclosure, if that is what stands behind the item. -/
theorem Json.EndAll.item {within : List Enclosure} {here after : List Char} (ends : EndAll (e :: within) after rest)
    (entered : e.enter cs = .ok here) (value : ValueThen here after) (spaces : Spaces pad) (isFirst : Bool) :
    ∃ behind, e.Ends isFirst (pad ++ (front isFirst ++ cs)) behind ∧ EndAll within behind rest := by
  obtain ⟨lead, leads, rfl⟩ := e.exists_of_enter entered
  obtain ⟨before, text, before_spaces, value, rfl⟩ := value
  cases ends with
  | cons first outer => exact ⟨_, first.item spaces isFirst leads before_spaces value, outer⟩

-- By the length of the text, as the readers are: each of the three is used for the two others.
mutual

/-- What is passed over where a value has to be is a value, and what is left of the enclosures that it stands in. -/
theorem Json.exists_of_skipValue (within : List Enclosure) (cs : List Char) {rest : List Char}
    (h : skipValue within cs = .ok rest) : ∃ after, ValueThen cs after ∧ EndAll within after rest := by
  obtain ⟨c, more, start, first⟩ := cases_of_skipValue h
  have shorter := length_lt_of_skipSpace start
  obtain ⟨pad, spaces, same⟩ := exists_of_skipSpace start
  rcases first with ⟨e, opens, inside⟩ | ⟨after, scalar, behind⟩
  · obtain ⟨after, ends, outer⟩ := exists_of_skipFirst e within more inside
    obtain ⟨text, value, written⟩ := ends.exists_value
    rw [same, opens, written]
    exact ⟨after, spaces.valueThen (value.valueThen after), outer⟩
  · have kept := length_skipScalar scalar
    obtain ⟨text, value, written⟩ := exists_of_skipScalar scalar
    rw [same, written]
    exact ⟨after, spaces.valueThen (value.valueThen after), exists_of_skipAfter within after behind⟩
termination_by 2 * cs.length

/-- What is passed over behind an opening bracket is what is left of that enclosure, and of those that it stands in. -/
theorem Json.exists_of_skipFirst (e : Enclosure) (within : List Enclosure) (cs : List Char) {rest : List Char}
    (h : skipFirst e within cs = .ok rest) : ∃ after, e.Ends true cs after ∧ EndAll within after rest := by
  obtain ⟨c, more, start, first⟩ := cases_of_skipFirst h
  have shorter := length_lt_of_skipSpace start
  obtain ⟨pad, spaces, same⟩ := exists_of_skipSpace start
  rcases first with ⟨closes, behind⟩ | ⟨here, entered, inside⟩
  · rw [same, closes]
    exact ⟨more, spaces.ends e true more, exists_of_skipAfter within more behind⟩
  · have kept := start ▸ length_skipSpace_le cs
    have entered_le := Enclosure.length_enter entered
    obtain ⟨after, value, ends⟩ := exists_of_skipValue (e :: within) here inside
    rw [same]
    exact ends.item entered value spaces true
termination_by 2 * cs.length + 1

/-- What is passed over behind a value is what is left of the enclosures that it stands in. -/
theorem Json.exists_of_skipAfter (within : List Enclosure) (cs : List Char) {rest : List Char}
    (h : skipAfter within cs = .ok rest) : EndAll within cs rest := by
  cases within with
  | nil =>
    rw [skipAfter] at h
    cases h
    exact .nil
  | cons e within =>
    obtain ⟨c, more, start, next⟩ := cases_of_skipAfter h
    have shorter := length_lt_of_skipSpace start
    obtain ⟨pad, spaces, same⟩ := exists_of_skipSpace start
    rcases next with ⟨closes, behind⟩ | ⟨comma, here, entered, inside⟩
    · rw [same, closes]
      exact .cons (spaces.ends e false more) (exists_of_skipAfter within more behind)
    · have entered_le := Enclosure.length_enter entered
      obtain ⟨after, value, ends⟩ := exists_of_skipValue (e :: within) here inside
      obtain ⟨behind, item, outer⟩ := ends.item entered value spaces false
      rw [same, comma]
      exact .cons item outer
termination_by 2 * cs.length

end

end

/-- A text is a value exactly when it is passed over as a whole, without white space in front of it. -/
theorem Json.value_iff {text : List Char} : Value text ↔ skipSpace text = text ∧ skipValue [] text = .ok [] := by
  constructor
  · intro value
    have nothing : Follows [] := Spaces.nil.follows
    have skipped := value.skipValue_append [] nothing
    obtain ⟨c, more, rfl, space, -⟩ := value.starts
    rw [List.append_nil, skipAfter] at skipped
    exact ⟨skipSpace_cons space more, skipped⟩
  · rintro ⟨noSpace, skipped⟩
    obtain ⟨after, ⟨before, inner, spaces, value, same⟩, all⟩ := exists_of_skipValue [] text skipped
    cases all
    obtain ⟨c, more, rfl, space, -⟩ := value.starts
    rw [List.append_nil] at same
    rw [same, spaces.skipSpace_append, skipSpace_cons space] at noSpace
    rwa [same, ← noSpace]

end GateRules
