import GateRules.Proofs.Places
import GateRules.Proofs.Seams

/-!
# Where reading stops

A text that is refused is read up to a place, and the place is told with what was expected there. Reading has come through a
row of tokens in order and is stuck behind it (`Notation.readDraft_stops`): the next token is not there, or it is a string that
is not closed. So the part before the place may be continued, and what it needs next is a token of the kind that was expected;
only a part that is a complete rule needs none.
-/

namespace GateRules

/-! ## Stuck behind a row of tokens -/

/-- Reading is stuck at the front of a text, where a token has to come. Behind the layout there is no token of the expected
kind, or there is a string that is not closed. Where nothing is expected, the text has not come to its end. -/
inductive Notation.Stuck : List Char → Failure → Prop
  | absent {lay rest : List Char} {expected : Option Expected} (layout : Layout (lay ++ rest) rest)
      (firm : skipLayout rest = rest) (goesOn : expected = none → rest ≠ [])
      (missing : ∀ token after, token.kind = expected → ¬Reads rest token after) : Stuck (lay ++ rest) ⟨expected, rest⟩
  | unclosed {lay items : List Char} {expected : Expected} (isString : expected ≠ .operator)
      (layout : Layout (lay ++ '"' :: items) ('"' :: items)) (opened : readItems items = none) :
      Stuck (lay ++ '"' :: items) ⟨some expected, []⟩

/-- Reading comes through tokens in order and is stuck behind them. -/
def Notation.StopsAt (first : Option Expected) (cs : List Char) (failure : Failure) : Prop :=
  ∃ tokens mid, Row cs tokens mid ∧ InOrder first tokens failure.expected ∧ Stuck mid failure

/-- When layout was passed over, there is none left to pass over. -/
theorem Notation.skipLayout_idem (cs : List Char) : skipLayout (skipLayout cs) = skipLayout cs :=
  (skipLayout_of_layout (layout_skipLayout cs)).symm

/-- Reading is stuck behind layout if there is no token of the expected kind. -/
theorem Notation.stuck_of_missing {cs : List Char} {expected : Option Expected}
    (goesOn : expected = none → skipLayout cs ≠ [])
    (missing : ∀ token after, token.kind = expected → ¬Reads (skipLayout cs) token after) :
    Stuck cs ⟨expected, skipLayout cs⟩ := by
  obtain ⟨lay, same⟩ := skipLayout_suffix cs
  have layout := layout_skipLayout cs
  have stuck := @Stuck.absent lay (skipLayout cs) expected (same.symm ▸ layout) (skipLayout_idem cs) goesOn missing
  rwa [same] at stuck

/-- A string that has to come is not there, or it is not closed. -/
theorem Notation.stuck_of_readQuoted {cs : List Char} {expected : Expected} {failure : Failure}
    (isString : expected ≠ .operator) (h : readQuoted expected (skipLayout cs) = .error failure)
    (missing : ∀ token after, token.kind = some expected → ¬Reads (skipLayout cs) token after) :
    failure.expected = some expected ∧ Stuck cs failure := by
  unfold readQuoted at h
  split at h
  · rename_i items start
    split at h
    · cases h
    · rename_i opened
      cases h
      obtain ⟨lay, same⟩ := skipLayout_suffix cs
      have layout := layout_skipLayout cs
      rw [start] at same layout
      exact ⟨rfl, same ▸ .unclosed isString (same.symm ▸ layout) opened⟩
  · cases h
    exact ⟨rfl, stuck_of_missing (nomatch ·) missing⟩

/-- A field that cannot be read is expected where the text behind the layout starts, or a string is not closed. -/
theorem Notation.stuck_of_readField {cs : List Char} {failure : Failure} (h : readField (skipLayout cs) = .error failure) :
    failure.expected = some .field ∧ Stuck cs failure := by
  have missing : ∀ token after, token.kind = some .field → ¬Reads (skipLayout cs) token after := by
    rintro (name | _ | _ | _) after ⟨⟩ token
    exact nomatch h.symm.trans (readField_eq_ok_iff.2 token)
  unfold readField at h
  split at h
  · cases h
  · exact stuck_of_readQuoted (by decide) h missing

/-- An operator that cannot be read is expected where the text behind the layout starts. -/
theorem Notation.stuck_of_readOperator {cs : List Char} {failure : Failure}
    (h : readOperator (skipLayout cs) = .error failure) : failure.expected = some .operator ∧ Stuck cs failure := by
  have missing : ∀ token after, token.kind = some .operator → ¬Reads (skipLayout cs) token after := by
    rintro (_ | name | _ | _) after ⟨⟩ token
    exact nomatch h.symm.trans (readOperator_eq_ok_iff.2 token)
  unfold readOperator at h
  split at h
  · cases h
  · cases h
    exact ⟨rfl, stuck_of_missing (nomatch ·) missing⟩

/-- A value that cannot be read is expected where the text behind the layout starts, or a string is not closed. -/
theorem Notation.stuck_of_readValue {cs : List Char} {failure : Failure}
    (h : readQuoted .value (skipLayout cs) = .error failure) : failure.expected = some .value ∧ Stuck cs failure := by
  refine stuck_of_readQuoted (by decide) h ?_
  rintro (_ | _ | text | _) after ⟨⟩ token
  exact nomatch h.symm.trans (readQuoted_eq_ok_iff.2 token)

/-! ## Terms, groups and whole texts -/

theorem Notation.StopsAt.here {cs : List Char} {first : Option Expected} {failure : Failure}
    (h : failure.expected = first ∧ Stuck cs failure) : StopsAt first cs failure :=
  ⟨[], cs, .nil cs, h.1.symm, h.2⟩

/-- Tokens in front of those that reading comes through. -/
theorem Notation.StopsAt.append (next : Option Expected) {cs mid : List Char} {front : List Token}
    {first : Option Expected} {failure : Failure} (row : Row cs front mid) (order : InOrder first front next)
    (h : StopsAt next mid failure) : StopsAt first cs failure := by
  obtain ⟨tokens, rest, row', order', stuck⟩ := h
  exact ⟨front ++ tokens, rest, Row.append_iff.2 ⟨mid, row, row'⟩, InOrder.append_iff.2 ⟨next, order, order'⟩, stuck⟩

/-- A term that is refused stops at one of its tokens. -/
theorem Notation.readTerm_stops {cs : List Char} {failure : Failure} (h : readTerm cs = .error failure) :
    StopsAt (some .field) cs failure := by
  unfold readTerm at h
  rcases bind_eq_error_iff.1 h with h | ⟨⟨field, afterField⟩, hf, h⟩
  · exact .here (stuck_of_readField h)
  have first : Row cs [.field (String.ofList field)] afterField := by
    refine Row.cons_iff.2 ⟨afterField, ?_, .nil _⟩
    simpa [Reads] using readField_eq_ok_iff.1 hf
  refine .append (some .operator) first ⟨rfl, rfl⟩ ?_
  rcases bind_eq_error_iff.1 h with h | ⟨⟨operator, afterOperator⟩, ho, h⟩
  · exact .here (stuck_of_readOperator h)
  have second : Row afterField [.operator (String.ofList operator)] afterOperator := by
    refine Row.cons_iff.2 ⟨afterOperator, ?_, .nil _⟩
    simpa [Reads] using readOperator_eq_ok_iff.1 ho
  refine .append (some .value) second ⟨rfl, rfl⟩ ?_
  rcases bind_eq_error_iff.1 h with h | ⟨_, _, h⟩
  · exact .here (stuck_of_readValue h)
  · cases h

/-- After an item, items with a connective before each stop where a connective is missing or where an item does. -/
theorem Notation.many_stops {α : Type} {r : Reader Failure α} {view : α → List Token} {link : Link}
    (sound : ∀ {cs a rest}, r.run cs = .ok (a, rest) → Row cs (view a) rest ∧ InOrder (some .field) (view a) none)
    (stops : ∀ {cs failure}, r.run cs = .error failure → StopsAt (some .field) cs failure) {cs : List Char}
    {failure : Failure} (h : r.many (connective link.word) cs = .error failure) : StopsAt none cs failure := by
  have joint {cs here : List Char} (hs : (connective link.word).skip? cs = some here) : Row cs [.link link] here :=
    .cons (layout_skipLayout cs) (stripWord_eq_some_iff.1 hs) (.nil here)
  fun_induction r.many (connective link.word) cs with
  | case1 => cases h
  | case2 cs here hs e hr =>
    cases h
    exact .append (some .field) (joint hs) ⟨rfl, rfl⟩ (stops hr)
  | case3 cs here hs a after hr ih =>
    obtain ⟨row, order⟩ := sound hr
    have later : StopsAt none after failure := by
      refine ih ?_
      cases hm : r.many (connective link.word) after with
      | error e => simpa [hm, Reader.mapValue_error] using h
      | ok read => simp [hm, Reader.mapValue, Except.map] at h
    exact .append (some .field) (joint hs) ⟨rfl, rfl⟩ (.append none row order later)

/-- Items with a connective between each two stop where an item does. -/
theorem Notation.sepBy_stops {α : Type} {r : Reader Failure α} {view : α → List Token} {link : Link}
    (sound : ∀ {cs a rest}, r.run cs = .ok (a, rest) → Row cs (view a) rest ∧ InOrder (some .field) (view a) none)
    (stops : ∀ {cs failure}, r.run cs = .error failure → StopsAt (some .field) cs failure) {cs : List Char}
    {failure : Failure} (h : (r.sepBy (connective link.word)).run cs = .error failure) :
    StopsAt (some .field) cs failure := by
  cases hr : r.run cs with
  | error e =>
    simp only [Reader.sepBy, hr, Except.error.injEq] at h
    exact h ▸ stops hr
  | ok read =>
    obtain ⟨a, after⟩ := read
    obtain ⟨row, order⟩ := sound hr
    refine .append none row order ?_
    simp only [Reader.sepBy, hr] at h
    cases hm : r.many (connective link.word) after with
    | error e =>
      simp only [hm, Reader.mapValue_error, Except.error.injEq] at h
      exact h ▸ many_stops sound stops hm
    | ok read => simp [hm, Reader.mapValue, Except.map] at h

/-- A term is read as a row of its three tokens. -/
theorem Notation.row_of_term {cs rest : List Char} {t : Term} (h : term.run cs = .ok (t, rest)) :
    Row cs t.tokens rest ∧ InOrder (some .field) t.tokens none :=
  ⟨(derivesTerm_iff_row t cs rest).1 (readTerm_eq_ok_iff_derivesTerm.1 h), t.inOrder_tokens⟩

/-- A group is read as a row of the tokens of its terms, with `and` between the terms. -/
theorem Notation.row_of_group {cs rest : List Char} {terms : List Term} (h : group.run cs = .ok (terms, rest)) :
    Row cs (Draft.groupTokens terms) rest ∧ InOrder (some .field) (Draft.groupTokens terms) none := by
  have derived := (run_group_eq_ok_iff.1 h).1
  refine ⟨(derivesGroup_iff_row derived.ne_nil cs rest).1 derived, ?_⟩
  exact inOrder_intercalate .and derived.ne_nil fun t _ => t.inOrder_tokens

/-- The groups that are read are a row of tokens, and no connective follows them. -/
theorem Notation.row_of_groups {cs rest : List Char} {draft : Draft} (h : groups.run cs = .ok (draft, rest)) :
    Row cs (Draft.tokens draft) rest ∧ InOrder (some .field) (Draft.tokens draft) none ∧
      ∀ token after, token.kind = none → ¬Reads (skipLayout rest) token after := by
  obtain ⟨chain, noAnd, noOr⟩ := run_groups_eq_ok_iff.1 h
  have derivedGroup : ∀ group ∈ draft, group ≠ [] := by
    intro group hg
    obtain ⟨_, _, derived⟩ := chain.exists_item group hg
    exact derived.ne_nil
  refine ⟨?_, ?_, ?_⟩
  · exact (chain_iff_row .or chain.ne_nil fun group hg => derivesGroup_iff_row (derivedGroup group hg)).1 chain
  · exact Draft.inOrder_tokens chain.ne_nil fun hn => derivedGroup [] hn rfl
  · rintro (_ | _ | _ | _ | _) after ⟨⟩ token
    · exact nomatch noAnd.symm.trans (stripWord_eq_some_iff.2 token)
    · exact nomatch noOr.symm.trans (stripWord_eq_some_iff.2 token)

/-- Groups that cannot be read stop behind a row of tokens that are in order. -/
theorem Notation.groups_stop {cs : List Char} {failure : Failure} (h : groups.run cs = .error failure) :
    StopsAt (some .field) cs failure :=
  @sepBy_stops _ _ _ .or row_of_group (fun h => @sepBy_stops _ _ _ .and row_of_term readTerm_stops _ _ h) _ _ h

/-- Layout in front of a text makes no difference to where reading stops. -/
theorem Notation.StopsAt.of_skipLayout {cs : List Char} {first : Option Expected} {failure : Failure}
    (h : StopsAt first (skipLayout cs) failure) : StopsAt first cs failure := by
  have layout := layout_skipLayout cs
  obtain ⟨tokens, mid, row, order, stuck⟩ := h
  cases tokens with
  | cons token tokens =>
    refine ⟨_, mid, ?_, order, stuck⟩
    rwa [Row.cons_iff, ← skipLayout_idem, ← Row.cons_iff]
  | nil =>
    refine ⟨[], cs, .nil cs, order, ?_⟩
    obtain ⟨front, same⟩ := skipLayout_suffix cs
    obtain rfl := Row.nil_iff.1 row
    generalize skipLayout cs = here at *
    subst same
    cases stuck with
    | absent layout' firm goesOn missing =>
      rw [← List.append_assoc] at layout ⊢
      exact .absent (layout.trans layout') firm goesOn missing
    | unclosed isString layout' opened =>
      rw [← List.append_assoc] at layout ⊢
      exact .unclosed isString (layout.trans layout') opened

/-- A text that is refused stops behind tokens in order. -/
theorem Notation.readDraft_stops {cs : List Char} {failure : Failure} (h : readDraft cs = .error failure) :
    StopsAt (some .field) cs failure := by
  refine .of_skipLayout ?_
  unfold readDraft at h
  split at h
  · cases h
  · split at h
    · rename_i hg
      cases h
      exact groups_stop hg
    · rename_i rest hg
      split at h
      · cases h
      · rename_i goesOn
        cases h
        obtain ⟨row, order, missing⟩ := row_of_groups hg
        exact ⟨_, rest, row, order, stuck_of_missing (fun _ => goesOn) missing⟩

/-! ## The part that was read -/

/-- The part of a text before the place where reading stopped is what is in front of the rest. -/
theorem Notation.Failure.before_append (expected : Option Expected) (pre rest : List Char) :
    Failure.before ⟨expected, rest⟩ (pre ++ rest) = pre := by
  simp [Failure.before]

theorem Notation.Failure.before_nil (expected : Option Expected) (text : List Char) :
    Failure.before ⟨expected, []⟩ text = text := by
  simp [Failure.before]

/-- Layout that goes on no further is layout by itself. -/
theorem Notation.Layout.left {lay rest : List Char} (h : Layout (lay ++ rest) rest) (firm : Notation.skipLayout rest = rest) :
    Layout lay [] := by
  by_cases hn : rest = []
  · subst hn
    rwa [List.append_nil] at h
  · obtain ⟨spacing, whole, same⟩ := h.exists_spacing hn firm
    obtain rfl := List.append_cancel_right same
    simpa using whole.layout []

/-- Behind a connective there is layout. -/
theorem Notation.Row.skipLayout_ne {cs rest : List Char} {tokens : List Token} {link : Link} (h : Row cs tokens rest)
    (last : tokens.getLast? = some (.link link)) : Notation.skipLayout rest ≠ rest := by
  obtain ⟨front, rfl⟩ := List.getLast?_eq_some_iff.1 last
  obtain ⟨mid, -, more⟩ := append_iff.1 h
  obtain ⟨after, first, more⟩ := cons_iff.1 more
  obtain rfl := nil_iff.1 more
  obtain ⟨c, gap, hc⟩ := Connective.startsWithGap first
  obtain ⟨behind, rfl⟩ := List.head?_eq_some_iff.1 hc
  exact fun firm => not_layoutPiece_of_skipLayout firm (.space (List.mem_append_left ['\x0c'] gap))

/-- Tokens and the layout behind them are there by themselves. -/
theorem Notation.Row.spells_left {pre lay rest : List Char} {tokens : List Token}
    (h : Row (pre ++ (lay ++ rest)) tokens (lay ++ rest)) (layout : Layout (lay ++ rest) rest)
    (firm : Notation.skipLayout rest = rest) : Spells (pre ++ lay) tokens := by
  refine ⟨lay, h.replace ?_, layout.left firm⟩
  cases lay with
  | cons c lay => exact .inl rfl
  | nil =>
    refine .inr fun token last => ?_
    have noPart : ∀ x, ([] : List Char).head? = some x → ¬IdentifierPart x := fun _ hx => nomatch hx
    cases token with
    | field name => exact noPart
    | operator name => exact noPart
    | value text => trivial
    | link link => exact absurd firm (h.skipLayout_ne last)

/-! ## How the part that was read goes on -/

/-- In a text, a token of a draft stands at `start`, with `after` behind it. -/
def Notation.StandsIn (draft : Draft) (cs : List Char) (token : Token) (start after : List Char) : Prop :=
  ∃ front back mid, Draft.tokens draft = front ++ token :: back ∧ Row cs front mid ∧ Layout mid start ∧
    Reads start token after

/-- `more` goes on behind `before` with a token of this kind. The token stands there, with layout in front of it at most, or
it is a string that is opened before, where no string is complete, and closed there. -/
inductive Notation.GoesOn (draft : Draft) (before more : List Char) (expected : Expected) : Prop
  | behind {token : Token} {start after : List Char} (stands : StandsIn draft (before ++ more) token start after)
      (kind : token.kind = some expected) (layout : Layout more start)
  | within {token : Token} {front opened closing after : List Char}
      (stands : StandsIn draft (before ++ more) token ('"' :: opened ++ more) after) (kind : token.kind = some expected)
      (isOpen : before = front ++ '"' :: opened) (unclosed : ∀ text rest, ¬Quoted ('"' :: opened) text rest)
      (closes : more = closing ++ after)

/-- Whatever is expected, there are tokens that start with it and leave a rule complete. -/
theorem Notation.exists_ending (expected : Option Expected) :
    ∃ cs tokens, Spells cs tokens ∧ InOrder expected tokens none := by
  have value : Spells ['"', '"'] [.value ""] := ⟨[], .cons .refl (.mk .nil) (.nil []), .refl⟩
  have name : Identifier ['a'] ['a'] [] := readIdentifier_eq_some_iff.1 rfl
  have operator : Spells ['a'] [.operator "a"] := ⟨[], .cons .refl name (.nil []), .refl⟩
  have field : Spells ['a'] [.field "a"] := ⟨[], .cons .refl (.bare name) (.nil []), .refl⟩
  match expected with
  | none => exact ⟨[], [], Spells.nil_iff.2 .refl, rfl⟩
  | some .value => exact ⟨_, _, value, rfl, rfl⟩
  | some .operator => exact ⟨_, _, operator.append_feed value, rfl, rfl, rfl⟩
  | some .field => exact ⟨_, _, field.append_feed (operator.append_feed value), rfl, rfl, rfl, rfl⟩

/-- Tokens in order can be completed on a new line, and the first of the new tokens is what was expected. -/
theorem Notation.Spells.exists_completion {cs : List Char} {tokens : List Token} {next : Option Expected}
    (h : Spells cs tokens) (order : InOrder (some .field) tokens next) :
    ∃ more draft, draft ≠ [] ∧ Derives (cs ++ more) draft ∧
      ∀ expected, next = some expected → GoesOn draft cs more expected := by
  obtain ⟨ending, later, spelt, order'⟩ := exists_ending next
  obtain ⟨draft, hne, full, same⟩ := InOrder.exists_draft (InOrder.append_iff.2 ⟨next, order, order'⟩)
  refine ⟨'\n' :: ending, draft, hne, derives_iff_spells.2 ⟨full, same ▸ h.append_feed spelt⟩, ?_⟩
  rintro expected rfl
  obtain ⟨rest, row, layout⟩ := h
  cases later with
  | nil => cases order'
  | cons token later =>
    obtain ⟨end', row', -⟩ := spelt
    obtain ⟨after, first, -⟩ := Row.cons_iff.1 row'
    have behind : Layout ('\n' :: ending) (Notation.skipLayout ending) := .head (.space (by decide)) (layout_skipLayout ending)
    refine .behind ⟨tokens, later, _, same, row.append_feed ending, ?_, first⟩ order'.1 behind
    exact (layout.append_feed ending).trans behind

/-- A string that is not closed can be closed. -/
theorem Notation.exists_closing {items : List Char} (h : readItems items = none) :
    ∃ text, ∀ after, readItems (items ++ 'x' :: '"' :: after) = some (text, after) := by
  fun_induction readItems items with
  | case1 => exact ⟨['x'], fun after => rfl⟩
  | case2 => cases h
  | case3 c cs ih =>
    obtain ⟨text, closed⟩ := ih (Option.map_eq_none_iff.1 h)
    exact ⟨unescape c ++ text, fun after => by simp [readItems, closed]⟩
  | case4 c cs notQuote notEscape ih =>
    obtain ⟨text, closed⟩ := ih (Option.map_eq_none_iff.1 h)
    -- a backslash here is the last character, and escapes what is put behind it
    by_cases hc : c = '\\'
    · subst hc
      cases cs with
      | nil => exact ⟨unescape 'x', fun after => rfl⟩
      | cons d cs => exact absurd rfl (notEscape d cs rfl)
    · exact ⟨c :: text, fun after => by simp_all [readItems]⟩

/-- A text that ends in a string that is not closed can be completed. -/
theorem Notation.Row.exists_completion_of_opened {pre lay items : List Char} {tokens : List Token} {expected : Expected}
    (h : Row (pre ++ (lay ++ '"' :: items)) tokens (lay ++ '"' :: items)) (order : InOrder (some .field) tokens (some expected))
    (isString : expected ≠ .operator) (layout : Layout (lay ++ '"' :: items) ('"' :: items))
    (opened : readItems items = none) :
    ∃ more draft, draft ≠ [] ∧ Derives (pre ++ (lay ++ '"' :: items) ++ more) draft ∧
      GoesOn draft (pre ++ (lay ++ '"' :: items)) more expected := by
  obtain ⟨text, closed⟩ := exists_closing opened
  have string (after : List Char) : Quoted ('"' :: (items ++ 'x' :: '"' :: after)) text after := by
    refine (@readQuoted_eq_ok_iff expected _ _ _).1 ?_
    simp [readQuoted, closed]
  obtain ⟨token, kind, reads⟩ : ∃ token : Token, token.kind = some expected ∧ ∀ after,
      Reads ('"' :: (items ++ 'x' :: '"' :: after)) token after := by
    cases expected with
    | field => exact ⟨.field (String.ofList text), rfl, fun after => .quoted (by simpa using string after)⟩
    | operator => exact absurd rfl isString
    | value => exact ⟨.value (String.ofList text), rfl, fun after => by simpa [Reads] using string after⟩
  obtain ⟨ending, later, spelt, order'⟩ := exists_ending token.next
  have orderBehind : InOrder (some expected) (token :: later) none := ⟨kind, order'⟩
  obtain ⟨draft, hne, full, same⟩ := InOrder.exists_draft (InOrder.append_iff.2 ⟨_, order, orderBehind⟩)
  obtain ⟨spacing, whole, here⟩ := layout.exists_spacing (List.cons_ne_nil _ _) (skipLayout_cons (by decide))
  obtain rfl := List.append_cancel_right here
  let more := 'x' :: '"' :: '\n' :: ending
  have row : Row (pre ++ (lay ++ '"' :: items) ++ more) tokens (lay ++ '"' :: (items ++ more)) := by
    rw [List.append_assoc, List.append_assoc, List.cons_append]
    refine h.replace (.inl ?_)
    cases lay <;> rfl
  have behind : Spells ('\n' :: ending) later := (Spells.iff_of_layout (.single (.space (by decide)))).2 spelt
  have spells : Spells (pre ++ (lay ++ '"' :: items) ++ more) (tokens ++ token :: later) := by
    refine Spells.append_iff.2 ⟨_, row, ?_⟩
    exact (@Spells.append_iff _ [token] later).2 ⟨_, .cons (whole.layout _) (reads _) (.nil _), behind⟩
  refine ⟨more, draft, hne, derives_iff_spells.2 ⟨full, same ▸ spells⟩, ?_⟩
  have stands : StandsIn draft (pre ++ (lay ++ '"' :: items) ++ more) token ('"' :: items ++ more) ('\n' :: ending) :=
    ⟨tokens, later, _, same, row, whole.layout _, reads _⟩
  refine .within stands kind (List.append_assoc pre lay _).symm ?_ (show more = ['x', '"'] ++ _ from rfl)
  intro text rest closed
  have := (@readQuoted_eq_ok_iff expected _ _ _).2 closed
  simp [readQuoted, opened] at this

/-- The part that was read can be completed to a rule with at least one group, and it goes on as was expected. -/
theorem Notation.StopsAt.exists_completion {cs : List Char} {failure : Failure} (h : StopsAt (some .field) cs failure) :
    ∃ more draft, draft ≠ [] ∧ Derives (failure.before cs ++ more) draft ∧
      ∀ expected, failure.expected = some expected → GoesOn draft (failure.before cs) more expected := by
  obtain ⟨tokens, mid, row, order, stuck⟩ := h
  obtain ⟨pre, rfl⟩ := row.exists_eq_append
  cases stuck with
  | @absent lay rest _ layout firm =>
    rw [← List.append_assoc, Failure.before_append]
    exact (row.spells_left layout firm).exists_completion order
  | unclosed isString layout opened =>
    obtain ⟨more, draft, hne, derived, goesOn⟩ := row.exists_completion_of_opened order isString layout opened
    rw [Failure.before_nil]
    refine ⟨more, draft, hne, derived, ?_⟩
    rintro _ ⟨⟩
    exact goesOn

/-- Nothing is expected exactly if the part that was read is a rule. -/
theorem Notation.StopsAt.expected_eq_none_iff {cs : List Char} {failure : Failure}
    (h : StopsAt (some .field) cs failure) (refused : ∀ draft, ¬Derives cs draft) :
    failure.expected = none ↔ ∃ draft, draft ≠ [] ∧ Derives (failure.before cs) draft := by
  obtain ⟨tokens, mid, row, order, stuck⟩ := h
  obtain ⟨pre, rfl⟩ := row.exists_eq_append
  cases stuck with
  | @absent lay rest expected layout firm =>
    have spells := row.spells_left layout firm
    rw [← List.append_assoc, Failure.before_append, exists_derives_iff]
    constructor
    · rintro rfl
      exact ⟨tokens, order, spells⟩
    · rintro ⟨tokens', order', spells'⟩
      obtain rfl := spells.unique order spells' order'
      exact order.unique order'
  | unclosed isString layout opened =>
    rw [Failure.before_nil]
    refine ⟨(nomatch ·), ?_⟩
    rintro ⟨draft, -, derived⟩
    exact absurd derived (refused draft)

/-- Where reading stopped there is no layout and not what is expected, and if nothing is expected the text goes on. -/
theorem Notation.StopsAt.rest_spec {first : Option Expected} {cs : List Char} {failure : Failure}
    (h : StopsAt first cs failure) :
    cs = failure.before cs ++ failure.rest ∧ (∀ rest, ¬LayoutPiece failure.rest rest) ∧
      (failure.expected = none → failure.rest ≠ []) ∧
      ∀ token after, token.kind = failure.expected → ¬Reads failure.rest token after := by
  obtain ⟨tokens, mid, row, -, stuck⟩ := h
  obtain ⟨pre, rfl⟩ := row.exists_eq_append
  cases stuck with
  | @absent lay rest expected layout firm goesOn missing =>
    refine ⟨?_, fun _ => not_layoutPiece_of_skipLayout firm, goesOn, missing⟩
    rw [← List.append_assoc, Failure.before_append]
  | unclosed =>
    refine ⟨?_, fun _ => (nomatch ·), (nomatch ·), fun token after _ reads => reads.ne_nil rfl⟩
    rw [Failure.before_nil, List.append_nil]

/-- A text that is refused, and the place where reading it stopped, in five parts.
1. The place is in the text: it counts the bytes of the part that was read, and it is not within a character.
2. The part that was read can be completed to a text that is read as at least one group.
3. Nothing is expected exactly if that part by itself is read as at least one group.
4. If a token is expected, then there is none of its kind at the place, and the part can be completed so that it goes on with
   a token of that kind; if the part ends in a string that is not closed, the string may be that token.
5. There is no white space and no comment at the place. If nothing is expected, then the text goes on there, and not with a
   connective. -/
theorem Notation.read_stops {text : String} {misread : Misread} (h : read text = .error misread) :
    let failure := misread.failure
    let before := failure.before text.toList
    let offset := failure.offset text.toList
    (text = String.ofList before ++ String.ofList failure.rest ∧ offset = (String.ofList before).utf8ByteSize ∧
      offset ≤ text.utf8ByteSize ∧ String.Pos.Raw.IsValid text ⟨offset⟩) ∧
    (∃ more draft, draft ≠ [] ∧ read (String.ofList (before ++ more)) = .ok draft) ∧
    (failure.expected = none ↔ ∃ draft, draft ≠ [] ∧ read (String.ofList before) = .ok draft) ∧
    (∀ expected, failure.expected = some expected →
      (∀ token after, token.kind = some expected → ¬Reads failure.rest token after) ∧
      ∃ more draft, draft ≠ [] ∧ read (String.ofList (before ++ more)) = .ok draft ∧ GoesOn draft before more expected) ∧
    (∀ after, ¬LayoutPiece failure.rest after) ∧
    (failure.expected = none → failure.rest ≠ [] ∧ ∀ link after, ¬Reads failure.rest (.link link) after) := by
  intro failure before offset
  have stops : StopsAt (some .field) text.toList failure := by
    obtain ⟨_, he, rfl⟩ := mapError_eq_error_iff.1 h
    exact readDraft_stops he
  have refused : ∀ draft, ¬Derives text.toList draft := fun draft derived =>
    nomatch h.symm.trans (read_eq_ok_iff.2 derived)
  have written (cs : List Char) (draft : Draft) : read (String.ofList cs) = .ok draft ↔ Derives cs draft := by
    rw [read_eq_ok_iff, String.toList_ofList]
  simp only [written]
  obtain ⟨split, noLayout, goesOn, missing⟩ := stops.rest_spec
  have whole : text = String.ofList before ++ String.ofList failure.rest := by
    rw [← String.ofList_append, ← split, String.ofList_toList]
  obtain ⟨more, draft, hne, derived, completed⟩ := stops.exists_completion
  refine ⟨⟨whole, rfl, ?_, ?_⟩, ⟨more, draft, hne, derived⟩, stops.expected_eq_none_iff refused, ?_, noLayout, ?_⟩
  · rw [whole, String.utf8ByteSize_append]
    exact Nat.le_add_right _ _
  · exact String.Pos.Raw.isValid_iff_exists_append.2 ⟨_, _, whole, rfl⟩
  · intro expected he
    exact ⟨he ▸ missing, more, draft, hne, derived, completed expected he⟩
  · intro he
    exact ⟨goesOn he, fun link after => missing (.link link) after he.symm⟩

/-- A string that ends with a backslash is not closed, and can be; behind a complete rule half a connective is too much. -/
theorem Notation.read_stops_in_string :
    let opened := "a in \"ü\\"
    let halfway := "a in \"ü\" \tan"
    read opened = .error ⟨opened, ⟨some .value, []⟩⟩ ∧ read halfway = .error ⟨halfway, ⟨none, ['a', 'n']⟩⟩ ∧
      String.Pos.Raw.IsValid opened ⟨9⟩ ∧ String.Pos.Raw.IsValid halfway ⟨11⟩ ∧
      (∃ more draft, draft ≠ [] ∧ read (String.ofList (opened.toList ++ more)) = .ok draft ∧
        GoesOn draft opened.toList more .value) ∧
      ∃ draft, draft ≠ [] ∧ read "a in \"ü\" \t" = .ok draft := by
  intro opened halfway
  have hOpened : read opened = .error ⟨opened, ⟨some .value, []⟩⟩ := by decide +kernel
  have hHalfway : read halfway = .error ⟨halfway, ⟨none, ['a', 'n']⟩⟩ := by decide +kernel
  have offsetOpened : Failure.offset ⟨some .value, []⟩ opened.toList = 9 := by decide +kernel
  have offsetHalfway : Failure.offset ⟨none, ['a', 'n']⟩ halfway.toList = 11 := by decide +kernel
  have beforeOpened : Failure.before ⟨some .value, []⟩ opened.toList = opened.toList := Failure.before_nil _ _
  have beforeHalfway : String.ofList (Failure.before ⟨none, ['a', 'n']⟩ halfway.toList) = "a in \"ü\" \t" := by
    decide +kernel
  obtain ⟨⟨-, -, -, validOpened⟩, -, -, goesOn, -⟩ := read_stops hOpened
  obtain ⟨⟨-, -, -, validHalfway⟩, -, complete, -⟩ := read_stops hHalfway
  rw [offsetOpened] at validOpened
  rw [offsetHalfway] at validHalfway
  rw [beforeHalfway] at complete
  obtain ⟨-, completion⟩ := goesOn .value rfl
  rw [beforeOpened] at completion
  exact ⟨hOpened, hHalfway, validOpened, validHalfway, completion, complete.1 rfl⟩

end GateRules
