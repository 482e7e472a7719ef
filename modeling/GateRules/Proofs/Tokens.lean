import GateRules.Proofs.Reading

/-!
# A text as a row of tokens

The grammar nests terms in groups and groups in a rule. Here a text is told flat, as the tokens that stand in it with layout in
front of each (`Notation.Row`), and nothing is lost by that: a text writes down a draft exactly if it spells the tokens of the
draft (`Notation.derives_iff_spells`). What may come next is known at every place (`Notation.InOrder`), so tokens that were read
from the front of a text are the first of all the tokens that the text spells (`Notation.Spells.exists_append`).
-/

namespace GateRules

/-! ## Tokens -/

/-- A word that joins terms to a group, or groups to a rule. -/
inductive Notation.Link where
  | and
  | or
deriving DecidableEq

/-- The letters of the word, in lower case. -/
def Notation.Link.word : Link → List Char
  | .and => ['a', 'n', 'd']
  | .or => ['o', 'r']

/-- A token, with what it stands for. -/
inductive Notation.Token where
  | field (name : String)
  | operator (name : String)
  | value (text : String)
  | link (link : Link)
deriving DecidableEq

/-- What is expected where this token stands. Where a connective stands nothing is: the rule may be complete. -/
def Notation.Token.kind : Token → Option Expected
  | .field _ => some .field
  | .operator _ => some .operator
  | .value _ => some .value
  | .link _ => none

/-- What is expected after this token. -/
def Notation.Token.next : Token → Option Expected
  | .field _ => some .operator
  | .operator _ => some .value
  | .value _ => none
  | .link _ => some .field

/-- A token stands at the front of a text, and the rest is behind it. -/
def Notation.Reads (cs : List Char) : Token → List Char → Prop
  | .field name, rest => Field cs name.toList rest
  | .operator name, rest => Identifier cs name.toList rest
  | .value text, rest => Quoted cs text.toList rest
  | .link link, rest => Connective link.word cs rest

/-- Tokens with layout in front of each, and the text behind the last. -/
inductive Notation.Row : List Char → List Token → List Char → Prop
  | nil (cs : List Char) : Row cs [] cs
  | cons {cs start after rest : List Char} {token : Token} {tokens : List Token} (layout : Layout cs start)
      (first : Reads start token after) (more : Row after tokens rest) : Row cs (token :: tokens) rest

/-- A whole text is made of these tokens and of layout. -/
def Notation.Spells (cs : List Char) (tokens : List Token) : Prop := ∃ rest, Row cs tokens rest ∧ Layout rest []

/-- Neither of the two words starts with the other. -/
theorem Notation.Link.eq_of_words {a b : Link} (h : a.word <+: b.word) : a = b := by
  revert h
  cases a <;> cases b <;> decide

/-- The text starts with white space that a connective may have directly behind it. -/
def Notation.StartsWithGap (cs : List Char) : Prop := ∃ c ∈ [' ', '\t', '\n', '\r'], cs.head? = some c

/-- A connective is its letters in any case and a text that starts with a gap. -/
theorem Notation.connective_append_iff {letters cs rest : List Char} :
    Connective (letters.map Char.toLower) (letters ++ cs) rest ↔ rest = cs ∧ StartsWithGap cs := by
  constructor
  · generalize hw : letters.map Char.toLower = word
    generalize ht : letters ++ cs = text
    rintro ⟨spelt, gap⟩
    rename_i letters' rest' c
    have length : letters.length = letters'.length := by
      rw [← List.length_map Char.toLower, hw, ← spelt, List.length_map]
    obtain ⟨rfl, rfl⟩ := List.append_inj ht length
    exact ⟨rfl, c, gap, rfl⟩
  · rintro ⟨rfl, c, gap, hc⟩
    obtain ⟨more, rfl⟩ := List.head?_eq_some_iff.1 hc
    exact .mk rfl gap

/-- A gap is left behind a connective. -/
theorem Notation.Connective.startsWithGap {word cs rest : List Char} (h : Connective word cs rest) : StartsWithGap rest := by
  obtain ⟨-, gap⟩ := h
  exact ⟨_, gap, rfl⟩

/-- The letters of a connective are there in some case. -/
theorem Notation.Connective.isPrefix {word cs rest : List Char} (h : Connective word cs rest) :
    word <+: cs.map Char.toLower := by
  obtain ⟨rfl, -⟩ := h
  rw [List.map_append]
  exact List.prefix_append _ _

/-- Where one connective stands there is no other. -/
theorem Notation.Link.unique {a b : Link} {cs rest rest' : List Char} (h : Connective a.word cs rest)
    (h' : Connective b.word cs rest') : a = b := by
  rcases List.prefix_or_prefix_of_prefix h.isPrefix h'.isPrefix with hp | hp
  · exact eq_of_words hp
  · exact (eq_of_words hp).symm

/-- Of each kind there is at most one token at the front of a text. -/
theorem Notation.Reads.unique {cs rest rest' : List Char} {a b : Token} (h : Reads cs a rest) (h' : Reads cs b rest')
    (kind : a.kind = b.kind) : a = b ∧ rest = rest' := by
  have bare {name name' : List Char} (h : Identifier cs name rest) (h' : Identifier cs name' rest') :
      name = name' ∧ rest = rest' := by
    simpa using (readIdentifier_eq_some_iff.2 h).symm.trans (readIdentifier_eq_some_iff.2 h')
  cases a <;> cases b <;> try cases kind
  · have same := (readField_eq_ok_iff.2 h).symm.trans (readField_eq_ok_iff.2 h')
    simpa [String.toList_inj] using same
  · simpa [String.toList_inj] using bare h h'
  · have same := ((@readQuoted_eq_ok_iff .value _ _ _).2 h).symm.trans (readQuoted_eq_ok_iff.2 h')
    simpa [String.toList_inj] using same
  · obtain rfl := Link.unique h h'
    refine ⟨rfl, ?_⟩
    exact Option.some.inj ((stripWord_eq_some_iff.2 h).symm.trans (stripWord_eq_some_iff.2 h'))

/-- No token starts with layout. -/
theorem Notation.Reads.skipLayout {cs rest : List Char} {token : Token} (h : Reads cs token rest) :
    skipLayout cs = cs := by
  cases token with
  | field name => exact skipLayout_of_field h
  | operator name => exact skipLayout_of_identifier h
  | value text => exact skipLayout_of_quoted h
  | link link => cases link <;> exact skipLayout_of_connective (by decide) h

/-- A token has at least one character. -/
theorem Notation.Reads.ne_nil {cs rest : List Char} {token : Token} (h : Reads cs token rest) : cs ≠ [] := by
  rintro rfl
  cases token with
  | field name => exact absurd (length_readField (readField_eq_ok_iff.2 h)) (Nat.not_lt_zero _)
  | operator name => exact absurd (length_readIdentifier (readIdentifier_eq_some_iff.2 h)) (Nat.not_lt_zero _)
  | value text => nomatch h
  | link link =>
    have := stripWord_eq_some_iff.2 h
    cases link <;> cases this

/-! ## Rows -/

theorem Notation.Row.nil_iff {cs rest : List Char} : Row cs [] rest ↔ cs = rest := by
  constructor
  · rintro ⟨⟩
    rfl
  · rintro rfl
    exact .nil cs

/-- The first token of a row stands behind all of the layout. -/
theorem Notation.Row.cons_iff {cs rest : List Char} {token : Token} {tokens : List Token} :
    Row cs (token :: tokens) rest ↔ ∃ after, Reads (Notation.skipLayout cs) token after ∧ Row after tokens rest := by
  constructor
  · rintro (_ | ⟨layout, first, more⟩)
    rw [skipLayout_of_layout layout, first.skipLayout]
    exact ⟨_, first, more⟩
  · rintro ⟨after, first, more⟩
    exact .cons (layout_skipLayout cs) first more

/-- A row of tokens is cut in two where one of its tokens ends. -/
theorem Notation.Row.append_iff {cs rest : List Char} {a b : List Token} :
    Row cs (a ++ b) rest ↔ ∃ mid, Row cs a mid ∧ Row mid b rest := by
  induction a generalizing cs with
  | nil => simp [nil_iff]
  | cons token a ih =>
    simp only [List.cons_append, cons_iff, ih]
    constructor
    · rintro ⟨after, first, mid, ha, hb⟩
      exact ⟨mid, ⟨after, first, ha⟩, hb⟩
    · rintro ⟨mid, ⟨after, first, ha⟩, hb⟩
      exact ⟨after, first, mid, ha, hb⟩

/-- The text behind some tokens is determined by the tokens. -/
theorem Notation.Row.unique {cs rest rest' : List Char} {tokens : List Token} (h : Row cs tokens rest)
    (h' : Row cs tokens rest') : rest = rest' := by
  induction tokens generalizing cs with
  | nil => exact (nil_iff.1 h).symm.trans (nil_iff.1 h')
  | cons token tokens ih =>
    obtain ⟨after, first, more⟩ := cons_iff.1 h
    obtain ⟨after', first', more'⟩ := cons_iff.1 h'
    obtain ⟨-, rfl⟩ := first.unique first' rfl
    exact ih more more'

/-- A text is nothing but layout if it spells no tokens. -/
theorem Notation.Spells.nil_iff {cs : List Char} : Spells cs [] ↔ Layout cs [] := by
  simp [Spells, Row.nil_iff]

/-- Layout in front of a text makes no difference to the tokens. -/
theorem Notation.Spells.iff_of_layout {cs cs' : List Char} {tokens : List Token} (layout : Layout cs cs') :
    Spells cs tokens ↔ Spells cs' tokens := by
  have same := skipLayout_of_layout layout
  cases tokens with
  | nil => rw [nil_iff, nil_iff, ← skipLayout_eq_nil_iff, ← skipLayout_eq_nil_iff, same]
  | cons token tokens => simp only [Spells, Row.cons_iff, same]

/-- What is behind some tokens spells the others. -/
theorem Notation.Spells.append_iff {cs : List Char} {a b : List Token} :
    Spells cs (a ++ b) ↔ ∃ mid, Row cs a mid ∧ Spells mid b := by
  simp only [Spells, Row.append_iff]
  constructor
  · rintro ⟨rest, ⟨mid, ha, hb⟩, layout⟩
    exact ⟨mid, ha, rest, hb, layout⟩
  · rintro ⟨mid, ha, rest, hb, layout⟩
    exact ⟨rest, ⟨mid, ha, hb⟩, layout⟩

/-! ## The order of tokens -/

/-- Each token is of the kind that is expected where it stands: `first` at the front, and `last` after all of them. -/
def Notation.InOrder (first : Option Expected) : List Token → Option Expected → Prop
  | [], last => first = last
  | token :: tokens, last => token.kind = first ∧ InOrder token.next tokens last

/-- Tokens are in order exactly if both parts of them are, the second where the first one ends. -/
theorem Notation.InOrder.append_iff {a b : List Token} {first last : Option Expected} :
    InOrder first (a ++ b) last ↔ ∃ mid, InOrder first a mid ∧ InOrder mid b last := by
  induction a generalizing first with
  | nil => simp [InOrder]
  | cons token a ih => simp only [List.cons_append, InOrder, ih, and_assoc, exists_and_left]

/-- The tokens alone say what is expected behind them. -/
theorem Notation.InOrder.unique {tokens : List Token} {first last last' : Option Expected} (h : InOrder first tokens last)
    (h' : InOrder first tokens last') : last = last' := by
  induction tokens generalizing first with
  | nil => exact (show first = last from h).symm.trans h'
  | cons token tokens ih => exact ih h.2 h'.2

/-- Tokens that were read in order from the front of a text are the first of the tokens that the text spells in order. -/
theorem Notation.Spells.exists_append {cs rest : List Char} {a b : List Token} {first mid last : Option Expected}
    (ha : Row cs a rest) (orderA : InOrder first a mid) (hb : Spells cs b) (orderB : InOrder first b last) :
    ∃ c, b = a ++ c ∧ Spells rest c ∧ InOrder mid c last := by
  induction a generalizing cs b first with
  | nil =>
    obtain rfl := Row.nil_iff.1 ha
    obtain rfl : first = mid := orderA
    exact ⟨b, rfl, hb, orderB⟩
  | cons token a ih =>
    obtain ⟨after, here, more⟩ := Row.cons_iff.1 ha
    cases b with
    | nil => exact absurd (skipLayout_eq_nil_iff.2 (nil_iff.1 hb)) here.ne_nil
    | cons token' b =>
      obtain ⟨end', row, layout⟩ := hb
      obtain ⟨after', here', more'⟩ := Row.cons_iff.1 row
      obtain ⟨rfl, rfl⟩ := here.unique here' (orderA.1.trans orderB.1.symm)
      obtain ⟨c, rfl, spelt, order⟩ := ih more orderA.2 ⟨end', more', layout⟩ orderB.2
      exact ⟨c, rfl, spelt, order⟩

/-- A text spells at most one row of tokens in order. -/
theorem Notation.Spells.unique {cs : List Char} {a b : List Token} {first mid last : Option Expected} (ha : Spells cs a)
    (orderA : InOrder first a mid) (hb : Spells cs b) (orderB : InOrder first b last) : a = b := by
  obtain ⟨rest, row, layout⟩ := ha
  obtain ⟨c, rfl, spelt, -⟩ := exists_append row orderA hb orderB
  cases c with
  | nil => exact (List.append_nil a).symm
  | cons token c =>
    obtain ⟨_, more, -⟩ := spelt
    obtain ⟨_, here, -⟩ := Row.cons_iff.1 more
    exact absurd (skipLayout_eq_nil_iff.2 layout) here.ne_nil

/-! ## The tokens of a draft -/

/-- The tokens of a term. -/
def Term.tokens (t : Term) : List Notation.Token := [.field t.field, .operator t.operator, .value t.value]

/-- The tokens of an AND-group. -/
def Draft.groupTokens (group : List Term) : List Notation.Token := [.link .and].intercalate (group.map Term.tokens)

/-- The tokens of a draft. -/
def Draft.tokens (draft : Draft) : List Notation.Token := [.link .or].intercalate (draft.map groupTokens)

/-- To put items with a separator between them behind others is to put one more separator between the two. -/
theorem intercalate_append {α : Type} {separator : List α} {a b : List (List α)} (ha : a ≠ []) (hb : b ≠ []) :
    separator.intercalate (a ++ b) = separator.intercalate a ++ separator ++ separator.intercalate b := by
  induction a with
  | nil => exact absurd rfl ha
  | cons x a ih =>
    cases a with
    | nil =>
      obtain ⟨y, b, rfl⟩ := List.exists_cons_of_ne_nil hb
      simp [List.intercalate_cons_cons]
    | cons y a => simp [List.intercalate_cons_cons, ← ih]

/-- Two groups in one have the word `and` between their tokens. -/
theorem Draft.groupTokens_append {a b : List Term} (ha : a ≠ []) (hb : b ≠ []) :
    groupTokens (a ++ b) = groupTokens a ++ .link .and :: groupTokens b := by
  simp only [groupTokens, List.map_append]
  rw [intercalate_append (by simpa using ha) (by simpa using hb)]
  simp

/-- Two drafts in one have the word `or` between their tokens. -/
theorem Draft.tokens_append {a b : Draft} (ha : a ≠ []) (hb : b ≠ []) :
    tokens (a ++ b) = tokens a ++ .link .or :: tokens b := by
  simp only [tokens, List.map_append]
  rw [intercalate_append (by simpa using ha) (by simpa using hb)]
  simp

/-- A draft whose first group is made longer in front. -/
theorem Draft.tokens_append_cons {a b : List Term} (ha : a ≠ []) (hb : b ≠ []) (back : Draft) :
    tokens ((a ++ b) :: back) = groupTokens a ++ .link .and :: tokens (b :: back) := by
  have whole : ∀ group, tokens [group] = groupTokens group := fun group => List.intercalate_singleton
  cases back with
  | nil => rw [whole, whole, groupTokens_append ha hb]
  | cons group back =>
    have split : ∀ first, tokens (first :: group :: back) = groupTokens first ++ .link .or :: tokens (group :: back) := by
      intro first
      rw [← whole first]
      exact tokens_append (List.cons_ne_nil first []) (List.cons_ne_nil group back)
    rw [split, split, groupTokens_append ha hb, List.append_assoc, List.cons_append]

/-- The tokens of a term are in order: a field, an operator and a value. -/
theorem Term.inOrder_tokens (t : Term) : Notation.InOrder (some .field) t.tokens none := ⟨rfl, rfl, rfl, rfl⟩

/-- Items with a connective between each two are in order if each item is. -/
theorem Notation.inOrder_intercalate {α : Type} {view : α → List Token} {as : List α} (link : Link) (hne : as ≠ [])
    (h : ∀ a ∈ as, InOrder (some .field) (view a) none) :
    InOrder (some .field) ([.link link].intercalate (as.map view)) none := by
  induction as with
  | nil => exact absurd rfl hne
  | cons a as ih =>
    rw [List.forall_mem_cons] at h
    cases as with
    | nil => simpa using h.1
    | cons b as =>
      have joint : InOrder none [.link link] (some .field) := ⟨rfl, rfl⟩
      rw [List.map_cons, List.map_cons, List.intercalate_cons_cons]
      exact InOrder.append_iff.2 ⟨_, InOrder.append_iff.2 ⟨_, h.1, joint⟩, ih (List.cons_ne_nil b as) h.2⟩

/-- The tokens of a draft without empty groups are in order. -/
theorem Draft.inOrder_tokens {draft : Draft} (hne : draft ≠ []) (full : [] ∉ draft) :
    Notation.InOrder (some .field) draft.tokens none := by
  refine Notation.inOrder_intercalate .or hne fun group hg => ?_
  exact Notation.inOrder_intercalate .and (fun h => full (h ▸ hg)) fun t _ => t.inOrder_tokens

/-- The tokens of every draft without an empty group are in order. -/
theorem Draft.exists_inOrder {draft : Draft} (full : [] ∉ draft) :
    ∃ last, Notation.InOrder (some .field) (tokens draft) last := by
  by_cases hne : draft = []
  · subst hne
    exact ⟨some .field, rfl⟩
  · exact ⟨none, inOrder_tokens hne full⟩

/-- Tokens in order start with a term if a field is expected. -/
theorem Notation.InOrder.exists_term {tokens : List Token} (h : InOrder (some .field) tokens none) :
    ∃ t rest, tokens = Term.tokens t ++ rest ∧ InOrder none rest none := by
  rcases tokens with _ | ⟨_ | _ | _ | _, _ | ⟨_ | _ | _ | _, _ | ⟨_ | _ | _ | _, rest⟩⟩⟩ <;>
    simp only [InOrder, Token.kind, Token.next, reduceCtorEq, Option.some.injEq, true_and, false_and, and_false] at h
  rename_i field operator value
  exact ⟨⟨field, operator, value⟩, rest, rfl, h⟩

/-- Where a rule may be complete, tokens in order are none or start with a connective. -/
theorem Notation.InOrder.exists_link {tokens : List Token} (h : InOrder none tokens none) :
    tokens = [] ∨ ∃ link rest, tokens = .link link :: rest ∧ InOrder (some .field) rest none := by
  rcases tokens with _ | ⟨_ | _ | _ | link, rest⟩ <;>
    simp only [InOrder, Token.kind, Token.next, reduceCtorEq, true_and, false_and] at h
  · exact .inl rfl
  · exact .inr ⟨link, rest, rfl, h⟩

/-- Tokens in order are those of a draft, if they start with a field and leave a rule complete. -/
theorem Notation.InOrder.exists_draft {tokens : List Token} (h : InOrder (some .field) tokens none) :
    ∃ draft, draft ≠ [] ∧ [] ∉ draft ∧ Draft.tokens draft = tokens := by
  -- on the length: a term and a connective are taken off together
  induction hn : tokens.length using Nat.strong_induction_on generalizing tokens with
  | h n ih =>
    subst hn
    obtain ⟨t, rest, rfl, hr⟩ := h.exists_term
    have alone : Draft.groupTokens [t] = t.tokens := by simp [Draft.groupTokens]
    rcases hr.exists_link with rfl | ⟨link, more, rfl, hm⟩
    · exact ⟨[[t]], by simp, by simp, by simp [Draft.tokens, alone]⟩
    · have shorter : more.length < (t.tokens ++ .link link :: more).length := by
        rw [List.length_append, List.length_cons]
        omega
      obtain ⟨draft, hne, full, rfl⟩ := ih _ shorter hm rfl
      obtain ⟨group, back, rfl⟩ := List.exists_cons_of_ne_nil hne
      have group_ne : group ≠ [] := fun hg => full (hg ▸ List.mem_cons_self)
      cases link with
      | and =>
        refine ⟨([t] ++ group) :: back, by simp, fun h => ?_, ?_⟩
        · exact full (List.mem_cons_of_mem group ((List.mem_cons.1 h).resolve_left (by simp)))
        · rw [Draft.tokens_append_cons (by simp) group_ne, alone]
      | or =>
        refine ⟨[[t]] ++ group :: back, by simp, by simpa using full, ?_⟩
        rw [Draft.tokens_append (by simp) (by simp), Draft.tokens, List.map_singleton, List.intercalate_singleton, alone]

/-! ## The grammar and the rows -/

/-- A term is derived exactly if its three tokens stand in a row. -/
theorem Notation.derivesTerm_iff_row (t : Term) (cs rest : List Char) :
    DerivesTerm cs t rest ↔ Row cs t.tokens rest := by
  constructor
  · rintro ⟨layout₁, field, layout₂, operator, layout₃, value⟩
    refine .cons layout₁ ?_ (.cons layout₂ ?_ (.cons layout₃ ?_ (.nil rest))) <;>
      simpa only [Reads, String.toList_ofList]
  · rintro (_ | ⟨layout₁, field, _ | ⟨layout₂, operator, _ | ⟨layout₃, value, ⟨⟩⟩⟩⟩)
    have h := DerivesTerm.mk layout₁ field layout₂ operator layout₃ value
    simpa only [String.ofList_toList] using h

/-- A chain has an item. -/
theorem Notation.Chain.ne_nil {α : Type} {item : List Char → α → List Char → Prop} {word cs rest : List Char} {as : List α}
    (h : Chain item word cs as rest) : as ≠ [] := by
  cases h <;> exact List.cons_ne_nil _ _

/-- Everything in a chain is derived from a part of the text. -/
theorem Notation.Chain.exists_item {α : Type} {item : List Char → α → List Char → Prop} {word cs rest : List Char}
    {as : List α} (h : Chain item word cs as rest) : ∀ a ∈ as, ∃ cs rest, item cs a rest := by
  induction h with
  | last h => simpa using ⟨_, _, h⟩
  | link h _ _ _ ih => exact List.forall_mem_cons.2 ⟨⟨_, _, h⟩, ih⟩

/-- A chain of items is a row of their tokens, if each of the items is. -/
theorem Notation.chain_iff_row {α : Type} {item : List Char → α → List Char → Prop} {view : α → List Token} (link : Link)
    {as : List α} (hne : as ≠ []) (h : ∀ a ∈ as, ∀ cs rest, item cs a rest ↔ Row cs (view a) rest) {cs rest : List Char} :
    Chain item link.word cs as rest ↔ Row cs ([.link link].intercalate (as.map view)) rest := by
  induction as generalizing cs with
  | nil => exact absurd rfl hne
  | cons a as ih =>
    rw [List.forall_mem_cons] at h
    cases as with
    | nil =>
      rw [List.map_singleton, List.intercalate_singleton, ← h.1]
      constructor
      · rintro (h | ⟨-, -, -, ⟨⟩⟩)
        exact h
      · exact .last
    | cons b as =>
      rw [List.map_cons, List.map_cons, List.intercalate_cons_cons, ← List.map_cons, List.append_assoc,
        List.singleton_append, Row.append_iff]
      constructor
      · rintro (_ | ⟨first, layout, joined, more⟩)
        exact ⟨_, (h.1 _ _).1 first, .cons layout joined ((ih (List.cons_ne_nil b as) h.2).1 more)⟩
      · rintro ⟨mid, first, _ | ⟨layout, joined, more⟩⟩
        exact .link ((h.1 _ _).2 first) layout joined ((ih (List.cons_ne_nil b as) h.2).2 more)

/-- A group is derived exactly if the tokens of its terms stand in a row, with `and` between the terms. -/
theorem Notation.derivesGroup_iff_row {group : List Term} (hne : group ≠ []) (cs rest : List Char) :
    DerivesGroup cs group rest ↔ Row cs (Draft.groupTokens group) rest :=
  chain_iff_row .and hne fun t _ => derivesTerm_iff_row t

/-- A text writes down a draft exactly if no group of the draft is empty and the text spells the tokens of the draft. -/
theorem Notation.derives_iff_spells {cs : List Char} {draft : Draft} :
    Derives cs draft ↔ [] ∉ draft ∧ Spells cs draft.tokens := by
  have groups (hne : draft ≠ []) (full : [] ∉ draft) (rest : List Char) :
      Chain DerivesGroup ['o', 'r'] cs draft rest ↔ Row cs draft.tokens rest :=
    chain_iff_row .or hne fun group hg => derivesGroup_iff_row fun h => full (h ▸ hg)
  constructor
  · rintro (layout | ⟨chain, layout⟩)
    · exact ⟨List.not_mem_nil, Spells.nil_iff.2 layout⟩
    · have full : [] ∉ draft := by
        intro hn
        obtain ⟨_, _, group⟩ := chain.exists_item [] hn
        exact group.ne_nil rfl
      exact ⟨full, _, (groups chain.ne_nil full _).1 chain, layout⟩
  · rintro ⟨full, spelt⟩
    by_cases hne : draft = []
    · subst hne
      exact .nothing (Spells.nil_iff.1 spelt)
    · obtain ⟨rest, row, layout⟩ := spelt
      exact .rule ((groups hne full rest).2 row) layout

/-- A text is read as a draft exactly if no group of the draft is empty and the text spells the tokens of the draft. -/
theorem Notation.read_eq_ok_iff_spells {text : String} {draft : Draft} :
    read text = .ok draft ↔ [] ∉ draft ∧ Spells text.toList (Draft.tokens draft) :=
  read_eq_ok_iff.trans derives_iff_spells

/-- A text writes down a draft with at least one group exactly if it spells tokens in order that leave a rule complete. -/
theorem Notation.exists_derives_iff {cs : List Char} :
    (∃ draft, draft ≠ [] ∧ Derives cs draft) ↔ ∃ tokens, InOrder (some .field) tokens none ∧ Spells cs tokens := by
  constructor
  · rintro ⟨draft, hne, derived⟩
    obtain ⟨full, spelt⟩ := derives_iff_spells.1 derived
    exact ⟨_, Draft.inOrder_tokens hne full, spelt⟩
  · rintro ⟨tokens, order, spelt⟩
    obtain ⟨draft, hne, full, rfl⟩ := order.exists_draft
    exact ⟨draft, hne, derives_iff_spells.2 ⟨full, spelt⟩⟩

end GateRules
