import GateRules.Proofs.Seams

/-!
# Layout put between tokens

White space or a comment may be put into a text at any place between two tokens, before the first or after the last, as long as
the place is not inside a comment. There is one exception, and it is exact: a connective has to have white space directly
behind it, and neither a form feed nor a comment will do there. The tokens in front of the place stay what they are because the
last of them ends where it did (`Notation.Row.replace`), and those behind it because they have more layout in front of them.
-/

namespace GateRules

/-- A place in a text that writes down a draft, between two tokens, before the first or after the last: `before` are the tokens
in front of it and `post` is the text behind it. Between the tokens and the place there is `spacing`, made of whole pieces,
and so the place is not inside a comment; the end of its line is part of a comment. -/
structure Notation.Gap (draft : Draft) (before : List Token) (pre spacing post : List Char) : Prop where
  tokens : before <+: Draft.tokens draft
  row : Row (pre ++ (spacing ++ post)) before (spacing ++ post)
  whole : Spacing spacing

/-- The last token is a connective, and the place is directly behind it. -/
def Notation.DirectlyBehindLink (before : List Token) (spacing : List Char) : Prop :=
  spacing = [] ∧ ∃ link, before.getLast? = some (.link link)

/-- A spacer starts with a character that ends a name. -/
theorem Notation.Spacer.exists_head {spacer : List Char} (h : Spacer spacer) :
    ∃ c, spacer.head? = some c ∧ ¬IdentifierPart c := by
  rcases h with h | _
  · refine ⟨_, rfl, ?_⟩
    rw [identifierPart_iff]
    rcases eq_of_mem_layoutStarts (List.mem_cons_of_mem '#' h) with rfl | rfl | rfl | rfl | rfl | rfl <;> decide
  · refine ⟨'#', rfl, ?_⟩
    rw [identifierPart_iff]
    decide

theorem Notation.head?_append_of_some {c : Char} {a : List Char} (h : a.head? = some c) (b : List Char) :
    (a ++ b).head? = some c := by
  obtain ⟨more, rfl⟩ := List.head?_eq_some_iff.1 h
  rfl

/-- Every token ends in front of white space and comments, except that a connective needs a gap. -/
theorem Notation.Spacer.mayEnd {spacer : List Char} (h : Spacer spacer) {token : Token}
    (gap : ∀ link, token = .link link → StartsWithGap spacer) (cs : List Char) : token.MayEnd (spacer ++ cs) := by
  obtain ⟨c, hc, noPart⟩ := h.exists_head
  have name : ∀ x, (spacer ++ cs).head? = some x → ¬IdentifierPart x := by
    intro x hx
    rw [head?_append_of_some hc, Option.some.injEq] at hx
    exact hx ▸ noPart
  cases token with
  | field field => exact name
  | operator operator => exact name
  | value text => trivial
  | link link =>
    obtain ⟨x, hx, hs⟩ := gap link rfl
    exact ⟨x, hx, head?_append_of_some hs cs⟩

/-- Tokens that stand in front of a place stay what they are when white space or a comment is put there. -/
theorem Notation.Row.insert {pre spacing post spacer : List Char} {before : List Token}
    (h : Row (pre ++ (spacing ++ post)) before (spacing ++ post)) (inserted : Spacer spacer)
    (gap : DirectlyBehindLink before spacing → StartsWithGap spacer) :
    Row (pre ++ (spacing ++ (spacer ++ post))) before (spacing ++ (spacer ++ post)) := by
  refine h.replace ?_
  cases spacing with
  | nil => exact .inr fun token last => inserted.mayEnd (fun link hl => gap ⟨rfl, link, hl ▸ last⟩) post
  | cons c spacing => exact .inl rfl

/-- A connective is read off its letters alone, and the text behind them starts with a gap. -/
theorem Notation.Reads.of_letters {letters cs after : List Char} {link other : Link}
    (spelt : letters.map Char.toLower = link.word) (h : Reads (letters ++ cs) (.link other) after) : StartsWithGap cs := by
  have word : other.word <+: (letters ++ cs).map Char.toLower := Connective.isPrefix h
  have same : other = link := by
    rw [List.map_append, spelt] at word
    rcases List.prefix_or_prefix_of_prefix word (List.prefix_append link.word _) with hp | hp
    · exact Link.eq_of_words hp
    · exact (Link.eq_of_words hp).symm
  subst same
  have joined : Connective (letters.map Char.toLower) (letters ++ cs) after := spelt ▸ h
  exact (connective_append_iff.1 joined).2

/-- After a complete rule nothing is spelt but what starts with a connective that has a gap behind it. -/
theorem Notation.Spells.startsWithGap_of_letters {lay letters cs : List Char} {tokens : List Token} {link : Link}
    {last : Option Expected} (whole : Spacing lay) (spelt : letters.map Char.toLower = link.word)
    (h : Spells (lay ++ (letters ++ cs)) tokens) (order : InOrder none tokens last) : StartsWithGap cs := by
  have firm : skipLayout (letters ++ cs) = letters ++ cs := by
    cases link <;> exact skipLayout_letters (by decide) spelt cs
  rw [iff_of_layout (whole.layout _)] at h
  cases tokens with
  | nil =>
    have nothing := skipLayout_eq_nil_iff.2 (nil_iff.1 h)
    rw [firm, List.append_eq_nil_iff] at nothing
    rw [nothing.1] at spelt
    cases link <;> cases spelt
  | cons token tokens =>
    obtain ⟨rest, row, -⟩ := h
    obtain ⟨after, first, -⟩ := Row.cons_iff.1 row
    rw [firm] at first
    cases token with
    | link other => exact first.of_letters spelt
    | field _ | operator _ | value _ => cases order.1

/-- A row that ends with a connective ends in its letters, and the tokens before them do not depend on what is behind. -/
theorem Notation.Row.exists_letters {pre post : List Char} {front : List Token} {link : Link}
    (h : Row (pre ++ post) (front ++ [.link link]) post) :
    ∃ written lay letters, pre = written ++ (lay ++ letters) ∧ Spacing lay ∧ letters.map Char.toLower = link.word ∧
      ∀ more, Row (written ++ (lay ++ (letters ++ more))) front (lay ++ (letters ++ more)) := by
  obtain ⟨mid, row, _ | ⟨layout, joined, ⟨⟩⟩⟩ := append_iff.1 h
  obtain ⟨lay, whole, rfl⟩ := layout.exists_spacing joined.ne_nil joined.skipLayout
  obtain ⟨written, same⟩ := row.exists_eq_append
  obtain ⟨spelt, -⟩ := joined
  rename_i letters rest c
  have word_ne : lay ++ letters ≠ [] := by
    intro hn
    rw [(List.append_eq_nil_iff.1 hn).2] at spelt
    cases link <;> cases spelt
  refine ⟨written, lay, letters, ?_, whole, spelt, fun more => ?_⟩
  · have text : pre ++ c :: rest = written ++ (lay ++ letters) ++ c :: rest := by simpa using same
    exact List.append_cancel_right text
  · rw [same] at row
    refine row.replace (.inl ?_)
    obtain ⟨x, behind, hx⟩ := List.exists_cons_of_ne_nil word_ne
    rw [← List.append_assoc, ← List.append_assoc lay, hx]
    rfl

/-- Where a text is read with white space or a comment put directly behind a connective, that makes a gap. -/
theorem Notation.Gap.startsWithGap {draft other : Draft} {before : List Token} {pre post spacer : List Char} {link : Link}
    (full : [] ∉ draft) (gap : Gap draft before pre [] post) (behind : before.getLast? = some (.link link))
    (inserted : Spacer spacer) (h : read (String.ofList (pre ++ (spacer ++ post))) = .ok other) : StartsWithGap spacer := by
  obtain ⟨front, rfl⟩ := List.getLast?_eq_some_iff.1 behind
  obtain ⟨written, lay, letters, rfl, whole, spelt, row⟩ := gap.row.exists_letters
  obtain ⟨after, tokens⟩ := gap.tokens
  obtain ⟨last, order⟩ := Draft.exists_inOrder full
  rw [← tokens, List.append_assoc, InOrder.append_iff] at order
  obtain ⟨expected, orderFront, orderLink⟩ := order
  obtain rfl : none = expected := orderLink.1
  obtain ⟨fullOther, spells⟩ := read_eq_ok_iff_spells.1 h
  obtain ⟨last', orderOther⟩ := Draft.exists_inOrder fullOther
  rw [String.toList_ofList, List.append_assoc, List.append_assoc] at spells
  -- the tokens before the connective are in the longer text too, and what follows them has to be the connective
  obtain ⟨more, -, spelt', order'⟩ := Spells.exists_append (row _) orderFront spells orderOther
  obtain ⟨x, hx, hs⟩ := Spells.startsWithGap_of_letters whole spelt spelt' order'
  obtain ⟨y, hy, -⟩ := inserted.exists_head
  rw [head?_append_of_some hy] at hs
  exact ⟨x, hx, hy.trans hs⟩

/-- White space or a comment with the end of its line, put into a text that is read as a draft, at any place between two
tokens, before the first or after the last that is not inside a comment; in two parts.
1. The longer text is read as the same draft, except perhaps where the place is directly behind a connective and what is put
   there does not start with a blank, a tab, a line feed or a carriage return.
2. There, which is if a form feed or a comment is put directly behind a connective, the longer text is refused. -/
theorem Notation.read_insert {draft : Draft} {before : List Token} {pre spacing post spacer : List Char}
    (accepted : read (String.ofList (pre ++ (spacing ++ post))) = .ok draft) (gap : Gap draft before pre spacing post)
    (inserted : Spacer spacer) :
    ((DirectlyBehindLink before spacing → StartsWithGap spacer) →
      read (String.ofList (pre ++ (spacing ++ (spacer ++ post)))) = .ok draft) ∧
    (DirectlyBehindLink before spacing → ¬StartsWithGap spacer →
      ∃ misread, read (String.ofList (pre ++ (spacing ++ (spacer ++ post)))) = .error misread) := by
  obtain ⟨full, spells⟩ := read_eq_ok_iff_spells.1 accepted
  rw [String.toList_ofList] at spells
  constructor
  · intro allowed
    obtain ⟨after, tokens⟩ := gap.tokens
    rw [← tokens] at spells
    obtain ⟨mid, row, behind⟩ := Spells.append_iff.1 spells
    obtain rfl := row.unique gap.row
    rw [read_eq_ok_iff_spells, String.toList_ofList, ← tokens]
    refine ⟨full, Spells.append_iff.2 ⟨_, gap.row.insert inserted allowed, ?_⟩⟩
    rw [Spells.iff_of_layout (gap.whole.layout _)] at behind ⊢
    exact (Spells.iff_of_layout (inserted.layout post)).2 behind
  · rintro ⟨rfl, link, behind⟩ refused
    cases h : read (String.ofList (pre ++ ([] ++ (spacer ++ post)))) with
    | error misread => exact ⟨misread, rfl⟩
    | ok other => exact absurd (gap.startsWithGap full behind inserted h) refused

/-- Directly behind a connective a tab changes nothing, and a form feed or a comment makes the text one that is refused. -/
theorem Notation.read_insert_behind_and :
    let pre := "a equals \"1\" and".toList
    let post := " b equals \"2\"".toList
    let draft : Draft := [[⟨"a", "equals", "1"⟩, ⟨"b", "equals", "2"⟩]]
    read (String.ofList (pre ++ post)) = .ok draft ∧
      read (String.ofList (pre ++ (['\t'] ++ post))) = .ok draft ∧
      (∃ misread, read (String.ofList (pre ++ (['\x0c'] ++ post))) = .error misread) ∧
      ∃ misread, read (String.ofList (pre ++ ("# both\n".toList ++ post))) = .error misread := by
  intro pre post draft
  let before : List Token := [.field "a", .operator "equals", .value "1", .link .and]
  have accepted : read (String.ofList (pre ++ ([] ++ post))) = .ok draft := by decide +kernel
  have row : Row (pre ++ ([] ++ post)) before ([] ++ post) := by
    have field : Reads (skipLayout (pre ++ post)) (.field "a") ((pre ++ post).drop 1) :=
      readField_eq_ok_iff.1 (by decide +kernel)
    have operator : Reads (skipLayout ((pre ++ post).drop 1)) (.operator "equals") ((pre ++ post).drop 8) :=
      readOperator_eq_ok_iff.1 (by decide +kernel)
    have value : Reads (skipLayout ((pre ++ post).drop 8)) (.value "1") ((pre ++ post).drop 12) :=
      (@readQuoted_eq_ok_iff .value _ _ _).1 (by decide +kernel)
    have link : Reads (skipLayout ((pre ++ post).drop 12)) (.link .and) post :=
      stripWord_eq_some_iff.1 (by decide +kernel)
    exact Row.cons_iff.2 ⟨_, field, Row.cons_iff.2 ⟨_, operator, Row.cons_iff.2 ⟨_, value,
      Row.cons_iff.2 ⟨_, link, .nil post⟩⟩⟩⟩
  have gap : Gap draft before pre [] post := ⟨by decide, row, .nil⟩
  have behind : DirectlyBehindLink before [] := ⟨rfl, .and, rfl⟩
  refine ⟨accepted, ?_, ?_, ?_⟩
  · exact (read_insert accepted gap (.space (by decide))).1 fun _ => ⟨'\t', by decide, rfl⟩
  · exact (read_insert accepted gap (.space (by decide))).2 behind (by simp [StartsWithGap])
  · have comment : Spacer "# both\n".toList := @Spacer.comment " both".toList ['\n'] (by decide) (by decide) (.inl rfl)
    exact (read_insert accepted gap comment).2 behind (by simp [StartsWithGap])

end GateRules
