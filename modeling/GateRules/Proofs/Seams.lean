import GateRules.Proofs.Tokens

/-!
# What is behind a row of tokens

A row of tokens stays what it is when the text behind it is exchanged, as long as the last token still ends where it did
(`Notation.Row.replace`). Layout is not as free, since a comment may end with the text and takes in what is put there. Layout
with a token behind it has no such comment, and comes in pieces that need nothing behind them (`Notation.Spacing`); any other
layout becomes such when a line feed is put behind it (`Notation.Layout.append_feed`).
-/

namespace GateRules

/-! ## Layout in whole pieces -/

/-- A character of white space, or a comment with the end of its line. -/
inductive Notation.Spacer : List Char → Prop
  | space {c : Char} (h : c ∈ [' ', '\t', '\n', '\r', '\x0c']) : Spacer [c]
  | comment {body ending : List Char} (noReturn : '\r' ∉ body) (noFeed : '\n' ∉ body)
      (ended : ending = ['\n'] ∨ ending = ['\r', '\n']) : Spacer ('#' :: (body ++ ending))

/-- White space and comments, each comment with the end of its line. -/
inductive Notation.Spacing : List Char → Prop
  | nil : Spacing []
  | cons {spacer more : List Char} (first : Spacer spacer) (rest : Spacing more) : Spacing (spacer ++ more)

theorem Notation.Spacer.layout {spacer : List Char} (h : Spacer spacer) (cs : List Char) : Layout (spacer ++ cs) cs := by
  have feed : Layout ('\n' :: cs) cs := .single (.space (by decide))
  have returnAndFeed : Layout ('\r' :: '\n' :: cs) cs := .head (.space (by decide)) feed
  rcases h with h | ⟨noReturn, noFeed, rfl | rfl⟩
  · exact .single (.space h)
  · rw [List.cons_append, List.append_assoc]
    exact .head (.comment noReturn noFeed (.lineFeed cs)) feed
  · rw [List.cons_append, List.append_assoc]
    exact .head (.comment noReturn noFeed (.returnAndFeed cs)) returnAndFeed

/-- Whole pieces are layout, whatever is behind them. -/
theorem Notation.Spacing.layout {spacing : List Char} (h : Spacing spacing) (cs : List Char) :
    Layout (spacing ++ cs) cs := by
  induction h with
  | nil => exact .refl
  | cons first _ ih =>
    rw [List.append_assoc]
    exact (first.layout _).trans ih

/-- White space in front of whole pieces is one of them. -/
theorem Notation.Spacing.tail {c : Char} {more : List Char} (h : Spacing (c :: more)) (space : c ≠ '#') :
    Spacing more := by
  generalize ht : c :: more = text at h
  rcases h with _ | ⟨_ | _, rest⟩
  · cases ht
  · obtain ⟨-, rfl⟩ := List.cons.inj ht
    exact rest
  · exact absurd (List.cons.inj ht).1 space

/-- A piece of layout is not empty. -/
theorem Notation.LayoutPiece.length_lt {cs rest : List Char} (h : LayoutPiece cs rest) : rest.length < cs.length := by
  cases h with
  | space => exact Nat.lt_succ_self _
  | comment =>
    simp only [List.length_cons, List.length_append]
    omega

/-- Where no layout is passed over there is none. -/
theorem Notation.not_layoutPiece_of_skipLayout {cs rest : List Char} (firm : skipLayout cs = cs) : ¬LayoutPiece cs rest := by
  intro piece
  have passed : cs = skipLayout rest := firm.symm.trans (skipLayout_of_piece piece)
  have shorter := length_skipLayout_le rest
  rw [← passed] at shorter
  exact absurd piece.length_lt (Nat.not_lt_of_le shorter)

/-- Layout comes in whole pieces if something is behind it that is no layout: a comment in it ends before, with its line. -/
theorem Notation.Layout.exists_spacing {cs rest : List Char} (h : Layout cs rest) (hne : rest ≠ [])
    (firm : skipLayout rest = rest) : ∃ spacing, Spacing spacing ∧ cs = spacing ++ rest := by
  obtain ⟨c, more, rfl⟩ := List.exists_cons_of_ne_nil hne
  have noSpace : c ∉ [' ', '\t', '\n', '\r', '\x0c'] := fun hc => not_layoutPiece_of_skipLayout firm (.space hc)
  have noFeed : c ≠ '\n' := fun hc => noSpace (by simp [hc])
  have noReturn : c ≠ '\r' := fun hc => noSpace (by simp [hc])
  induction h using Relation.ReflTransGen.head_induction_on with
  | refl => exact ⟨[], .nil, rfl⟩
  | head piece _ ih =>
    obtain ⟨spacing, whole, rfl⟩ := ih
    rcases piece with h | ⟨clean, clean', ended⟩
    · exact ⟨_, .cons (.space h) whole, rfl⟩
    · rename_i body
      -- the line ends within the pieces that follow, so its end goes to the comment
      generalize ht : spacing ++ c :: more = text at ended
      cases ended with
      | endOfText => simp at ht
      | lineFeed after =>
        rcases List.append_eq_cons_iff.1 ht with ⟨-, hc⟩ | ⟨after', rfl, rfl⟩
        · exact absurd (List.cons.inj hc).1.symm (Ne.symm noFeed)
        · have later := whole.tail (by decide)
          exact ⟨_, .cons (.comment clean clean' (.inl rfl)) later, by simp⟩
      | returnAndFeed after =>
        rcases List.append_eq_cons_iff.1 ht with ⟨-, hc⟩ | ⟨after', rfl, hf⟩
        · exact absurd (List.cons.inj hc).1.symm (Ne.symm noReturn)
        · rcases List.append_eq_cons_iff.1 hf.symm with ⟨-, hc⟩ | ⟨after'', rfl, rfl⟩
          · exact absurd (List.cons.inj hc).1.symm (Ne.symm noFeed)
          · have later := (whole.tail (by decide)).tail (by decide)
            exact ⟨_, .cons (.comment clean clean' (.inr rfl)) later, by simp⟩

/-- What ends a line still does with a line feed behind it, and nothing else behind the text matters. -/
theorem Notation.LineEnd.append_feed {cs : List Char} (h : LineEnd cs) (more : List Char) :
    LineEnd (cs ++ '\n' :: more) := by
  cases h <;> constructor

/-- Layout stays layout with a line feed behind the text. -/
theorem Notation.Layout.append_feed {cs rest : List Char} (h : Layout cs rest) (more : List Char) :
    Layout (cs ++ '\n' :: more) (rest ++ '\n' :: more) := by
  induction h using Relation.ReflTransGen.head_induction_on with
  | refl => exact .refl
  | head piece _ ih =>
    refine .head ?_ ih
    cases piece with
    | space h => exact .space h
    | comment noReturn noFeed ended =>
      rw [List.cons_append, List.append_assoc]
      exact .comment noReturn noFeed (ended.append_feed more)

/-- Layout that ends with the text is layout with a line feed behind it, and with anything behind that. -/
theorem Notation.Layout.feed {cs : List Char} (h : Layout cs []) (more : List Char) : Layout (cs ++ '\n' :: more) more :=
  (h.append_feed more).tail (.space (by decide))

/-! ## Tokens -/

/-- A token may end here, whatever the token is: a name cannot go on, and a connective has its white space. -/
def Notation.Token.MayEnd : Token → List Char → Prop
  | .field _, cs | .operator _, cs => ∀ x, cs.head? = some x → ¬IdentifierPart x
  | .value _, _ => True
  | .link _, cs => StartsWithGap cs

/-- A line feed may be behind every token. -/
theorem Notation.Token.mayEnd_feed (token : Token) (cs : List Char) : token.MayEnd ('\n' :: cs) := by
  have noPart : ∀ x, ('\n' :: cs).head? = some x → ¬IdentifierPart x := by
    rintro _ ⟨⟩
    rw [identifierPart_iff]
    decide
  cases token with
  | field name => exact noPart
  | operator name => exact noPart
  | value text => trivial
  | link link => exact ⟨'\n', by decide, rfl⟩

/-- What may be behind some tokens in place of `rest`: it starts like `rest`, or the last of the tokens may end there. -/
def Notation.Seam (tokens : List Token) (rest more : List Char) : Prop :=
  more.head? = rest.head? ∨ ∀ token, tokens.getLast? = some token → token.MayEnd more

/-- A name that was read is a name in front of any text that ends it. -/
theorem Notation.Identifier.exists_used {cs name rest : List Char} (h : Identifier cs name rest) :
    ∃ used, used ≠ [] ∧ cs = used ++ rest ∧ ∀ more, (more.head? = rest.head? ∨
      ∀ x, more.head? = some x → ¬IdentifierPart x) → Identifier (used ++ more) name more := by
  obtain ⟨start, parts, ended⟩ := h
  refine ⟨_ :: _, List.cons_ne_nil _ _, rfl, ?_⟩
  rintro more (same | ends)
  · exact .mk start parts (same ▸ ended)
  · exact .mk start parts ends

/-- A string that was read is that string in front of any text. -/
theorem Notation.Quoted.exists_used {cs text rest : List Char} (h : Quoted cs text rest) :
    ∃ used, used ≠ [] ∧ cs = used ++ rest ∧ ∀ more, Quoted (used ++ more) text more := by
  obtain ⟨items⟩ := h
  rename_i written
  refine ⟨'"' :: (written ++ ['"']), List.cons_ne_nil _ _, by simp, fun more => ?_⟩
  simpa using Quoted.mk items

/-- A token stands in a part of the text, and what is behind that part may be exchanged. -/
theorem Notation.Reads.exists_used {cs rest : List Char} {token : Token} (h : Reads cs token rest) :
    ∃ used, used ≠ [] ∧ cs = used ++ rest ∧ ∀ more, Seam [token] rest more → Reads (used ++ more) token more := by
  have last {rest more : List Char} (h : Seam [token] rest more) : more.head? = rest.head? ∨ token.MayEnd more :=
    h.imp_right fun ends => ends token rfl
  cases token with
  | field name =>
    rcases h with h | h
    · obtain ⟨used, hne, rfl, goes⟩ := h.exists_used
      exact ⟨used, hne, rfl, fun more seam => .bare (goes more (last seam))⟩
    · obtain ⟨used, hne, rfl, goes⟩ := h.exists_used
      exact ⟨used, hne, rfl, fun more _ => .quoted (goes more)⟩
  | operator name =>
    obtain ⟨used, hne, rfl, goes⟩ := Identifier.exists_used h
    exact ⟨used, hne, rfl, fun more seam => goes more (last seam)⟩
  | value text =>
    obtain ⟨used, hne, rfl, goes⟩ := Quoted.exists_used h
    exact ⟨used, hne, rfl, fun more _ => goes more⟩
  | link link =>
    have word_ne : link.word ≠ [] := by cases link <;> decide
    obtain ⟨spelt, gap⟩ := h
    rename_i letters rest c
    refine ⟨letters, ?_, rfl, fun more seam => ?_⟩
    · rintro rfl
      exact word_ne spelt.symm
    · show Connective link.word _ _
      rw [← spelt, connective_append_iff]
      rcases last seam with same | ends
      · exact ⟨rfl, c, gap, same⟩
      · exact ⟨rfl, ends⟩

/-! ## Rows -/

/-- Tokens stand in a part of the text, and what is behind that part may be exchanged. -/
theorem Notation.Row.exists_used {cs rest : List Char} {tokens : List Token} (h : Row cs tokens rest) :
    ∃ used, (tokens ≠ [] → used ≠ []) ∧ cs = used ++ rest ∧
      ∀ more, Seam tokens rest more → Row (used ++ more) tokens more := by
  induction h with
  | nil cs => exact ⟨[], fun h => absurd rfl h, rfl, fun more _ => .nil more⟩
  | @cons cs start after rest token tokens layout first more ih =>
    obtain ⟨used, hne, rfl, goes⟩ := ih
    obtain ⟨spacing, whole, rfl⟩ := layout.exists_spacing first.ne_nil first.skipLayout
    obtain ⟨written, written_ne, rfl, here⟩ := first.exists_used
    refine ⟨spacing ++ (written ++ used), ?_, by simp only [List.append_assoc], fun cs' seam => ?_⟩
    · intro _ hn
      exact written_ne (List.append_eq_nil_iff.1 (List.append_eq_nil_iff.1 hn).2).1
    rw [List.append_assoc, List.append_assoc]
    -- the first token is followed by the others if there are any, and otherwise by what is exchanged
    cases tokens with
    | nil =>
      obtain rfl : used = [] := by simpa using nil_iff.1 more
      exact .cons (whole.layout _) (here _ seam) (.nil _)
    | cons token' tokens =>
      obtain ⟨x, used, rfl⟩ := List.exists_cons_of_ne_nil (hne (List.cons_ne_nil _ _))
      have seam' : Seam (token' :: tokens) rest cs' := seam.imp_right fun ends last hl => ends last (by simpa using hl)
      exact .cons (whole.layout _) (here _ (.inl rfl)) (goes cs' seam')

/-- What is behind a row of tokens may be exchanged. -/
theorem Notation.Row.replace {text rest more : List Char} {tokens : List Token} (h : Row (text ++ rest) tokens rest)
    (seam : Seam tokens rest more) : Row (text ++ more) tokens more := by
  obtain ⟨used, -, same, goes⟩ := h.exists_used
  obtain rfl := List.append_cancel_right same
  exact goes more seam

/-- What is behind a row of tokens is an end of the text. -/
theorem Notation.Row.exists_eq_append {cs rest : List Char} {tokens : List Token} (h : Row cs tokens rest) :
    ∃ used, cs = used ++ rest := by
  obtain ⟨used, -, same, -⟩ := h.exists_used
  exact ⟨used, same⟩

/-- A row of tokens stays one with a line feed behind the text. -/
theorem Notation.Row.append_feed {cs rest : List Char} {tokens : List Token} (h : Row cs tokens rest) (more : List Char) :
    Row (cs ++ '\n' :: more) tokens (rest ++ '\n' :: more) := by
  obtain ⟨used, rfl⟩ := h.exists_eq_append
  rw [List.append_assoc]
  refine h.replace ?_
  cases rest with
  | nil => exact .inr fun token _ => token.mayEnd_feed more
  | cons c rest => exact .inl rfl

/-- Tokens may be put behind others on a new line. -/
theorem Notation.Spells.append_feed {cs cs' : List Char} {a b : List Token} (ha : Spells cs a) (hb : Spells cs' b) :
    Spells (cs ++ '\n' :: cs') (a ++ b) := by
  obtain ⟨rest, row, layout⟩ := ha
  refine append_iff.2 ⟨rest ++ '\n' :: cs', row.append_feed cs', ?_⟩
  exact (iff_of_layout (layout.feed cs')).2 hb

end GateRules
