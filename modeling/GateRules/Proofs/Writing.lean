import GateRules.Notation.Write
import GateRules.Proofs.Admitting
import GateRules.Proofs.Reading

/-!
# What is written is read again

The text of a body is in the grammar, and it writes down the draft of the body. Every lemma speaks of a text with anything
behind it, so that tokens, terms and groups can be put one after the other; a name is the one token that has to know what
comes next, and it is always a blank.
-/

namespace GateRules

/-! ## Tokens -/

/-- A character as it is written between quotes is one item that stands for the character. -/
theorem Notation.item_escape (c : Char) : Item (escape c) [c] := by
  unfold escape
  split
  · exact .quote
  · exact .backslash
  · exact .lineFeed
  · exact .tab
  · exact .plain (by assumption) (by assumption)

/-- A text is what its escaped form stands for. -/
theorem Notation.items_escape (text : List Char) : Items (text.flatMap escape) text := by
  induction text with
  | nil => exact .nil
  | cons c text ih => exact .cons (item_escape c) ih

/-- A text in quotes is a string that stands for the text, whatever is behind it. -/
theorem Notation.quoted_quote (text rest : List Char) : Quoted (quote text ++ rest) text rest := by
  have h : Quoted ('"' :: (text.flatMap escape ++ '"' :: rest)) text rest := .mk (items_escape text)
  simpa [quote] using h

/-- An identifier with a text behind it that cannot make it longer is read as a whole. -/
theorem Notation.identifier_append {name rest : List Char} (h : isIdentifier name = true)
    (ended : ∀ x, rest.head? = some x → ¬IdentifierPart x) : Identifier (name ++ rest) name rest := by
  cases name with
  | nil => cases h
  | cons c more =>
    simp only [isIdentifier, Bool.and_eq_true, List.all_eq_true] at h
    exact .mk (identifierStart_iff.2 h.1) (fun x hx => identifierPart_iff.2 (h.2 x hx)) ended

/-- A field as it is written is a field, whether it is bare or in quotes. -/
theorem Notation.field_writeField (field : List Char) {rest : List Char}
    (ended : isIdentifier field = true → ∀ x, rest.head? = some x → ¬IdentifierPart x) :
    Field (writeField field ++ rest) field rest := by
  unfold writeField
  split
  · rename_i h
    exact .bare (identifier_append h (ended h))
  · exact .quoted (quoted_quote field rest)

/-- A blank makes no identifier longer. -/
theorem Notation.not_identifierPart_blank (rest : List Char) :
    ∀ x, (' ' :: rest).head? = some x → ¬IdentifierPart x := by
  intro x hx
  cases hx
  rw [identifierPart_iff]
  decide

theorem Notation.layout_blank (cs : List Char) : Layout (' ' :: cs) cs :=
  .single (.space (by decide))

/-- Every operator is written as a name. -/
theorem Operator.isIdentifier_token (operator : Operator) : Notation.isIdentifier operator.token.toList = true := by
  cases operator <;> decide

/-! ## Terms and chains -/

/-- An expression in notation is its term, whatever is behind it. -/
theorem Expression.derivesTerm_notate (e : Expression) (rest : List Char) :
    Notation.DerivesTerm (e.notate ++ rest) e.term rest := by
  have h := Notation.DerivesTerm.mk .refl
    (Notation.field_writeField e.field.toList fun _ => Notation.not_identifierPart_blank _)
    (Notation.layout_blank _)
    (Notation.identifier_append e.operator.isIdentifier_token (Notation.not_identifierPart_blank _))
    (Notation.layout_blank _) (Notation.quoted_quote e.value.toList rest)
  simpa [notate, term] using h

/-- Texts joined by a word with blanks around it are a chain, if each text with anything behind it is an item, and if an item
may have a blank in front of it. -/
theorem Notation.chain_intercalate {α β : Type} {item : List Char → α → List Char → Prop} {word : List Char}
    {write : β → List Char} {view : β → α} (lower : word.map Char.toLower = word)
    (written : ∀ b rest, item (write b ++ rest) (view b) rest)
    (afterBlank : ∀ cs a rest, item cs a rest → item (' ' :: cs) a rest) {bs : List β} (hne : bs ≠ [])
    (rest : List Char) :
    Chain item word ((' ' :: word ++ [' ']).intercalate (bs.map write) ++ rest) (bs.map view) rest := by
  induction bs with
  | nil => exact absurd rfl hne
  | cons b bs ih =>
    cases bs with
    | nil => simpa using Chain.last (written b rest)
    | cons b' bs =>
      have more := (ih (List.cons_ne_nil b' bs)).imp_first (afterBlank _)
      have gap : ' ' ∈ [' ', '\t', '\n', '\r'] := by decide
      have := Chain.link (written b _) (layout_blank _) (.mk lower gap) more
      simpa [List.intercalate_cons_cons] using this

/-! ## Clauses and bodies -/

/-- A clause in notation is the group of its terms, whatever is behind it. -/
theorem Clause.derivesGroup_notate (clause : Clause) (rest : List Char) :
    Notation.DerivesGroup (clause.notate ++ rest) (clause.expressions.map Expression.term) rest :=
  Notation.chain_intercalate (by decide) Expression.derivesTerm_notate
    (fun cs _ _ h => h.afterLayout (Notation.layout_blank cs)) clause.expressions_ne_nil rest

/-- A body in notation writes down the draft of the body. -/
theorem Body.derives_notate (body : Body) : Notation.Derives body.notate body.draft := by
  have chain : Notation.Chain Notation.DerivesGroup ['o', 'r'] (body.notate ++ []) body.draft [] :=
    Notation.chain_intercalate (by decide) Clause.derivesGroup_notate
      (fun cs _ _ h => h.imp_first fun _ _ ht => ht.afterLayout (Notation.layout_blank cs)) body.clauses_ne_nil []
  rw [List.append_nil] at chain
  exact .rule chain .refl

/-- The text of a body is read as the draft of the body. -/
theorem Body.read_text (body : Body) : Notation.read body.text = .ok body.draft := by
  rw [Notation.read_eq_ok_iff, text, String.toList_ofList]
  exact body.derives_notate

/-- What is written is read again, in two parts, for every body.
1. The text of the body is read as exactly the terms of the body, group by group, and these are exactly its expressions.
2. For every tenant, and whatever registry it is that serves a vocabulary which permits every expression of the body, the
   text of the body is admitted as the rule that has exactly this body. -/
theorem Body.text_round_trip (body : Body) :
    (Notation.read body.text = .ok (body.groups.map (List.map Expression.term)) ∧
      Draft.expressions (body.groups.map (List.map Expression.term)) = .ok body.groups) ∧
    ∀ (tenant : String) (serve : Lookup) (v : Vocabulary), serve .preIssueAccessToken tenant = .ok v →
      (∀ group ∈ body.groups, ∀ e ∈ group, v.permits e.field e.operator = true) →
      (Rule.ofNotation body.text .preIssueAccessToken tenant serve).result =
        .ok (.conditional body .preIssueAccessToken tenant) := by
  rw [← body.draft_eq]
  refine ⟨⟨body.read_text, ?_⟩, ?_⟩
  · exact (Draft.expressions_eq_ok_iff_exists_body body.draft_ne_nil).2 ⟨body, rfl, rfl⟩
  · intro tenant serve v served permitted
    have asked : body.draft ≠ [] := body.draft_ne_nil
    unfold Rule.ofNotation
    rw [body.read_text]
    split
    · rename_i h
      cases h
    · rename_i h
      exact absurd (Except.ok.inj h) asked
    · rename_i h
      cases h
      rw [Rule.ofDraft_of_body rfl, Rule.ofExpressions_of_served served,
        Vocabulary.firstObjection?_eq_none_iff.2 permitted]

/-- A field that is spelt like a connective, and a value with quotes, a connective and a backslash in it, come back. -/
theorem Body.text_round_trip_spelt_like_connective :
    let serve := (Registry.empty.run [.field .preIssueAccessToken ⟨"or", [.equals]⟩]).lookup
    let e : Expression := ⟨"or", .equals, "\"a\" or \\", by decide, by decide⟩
    let body : Body := ⟨[⟨[e, e], List.cons_ne_nil e [e]⟩], List.cons_ne_nil _ []⟩
    (Rule.ofNotation body.text .preIssueAccessToken "carbon.super" serve).result =
      .ok (.conditional body .preIssueAccessToken "carbon.super") := by
  intro serve e body
  have permitted : ∀ group ∈ body.groups, ∀ x ∈ group,
      ((Vocabulary.empty.register ⟨"or", [.equals]⟩).merge .empty).permits x.field x.operator = true := by
    decide
  exact (text_round_trip body).2 "carbon.super" serve _ rfl permitted

end GateRules
