import GateRules.Notation.Read
import GateRules.Proofs.Grammar
import Mathlib.Data.List.TakeWhile
import Mathlib.Data.Set.Subsingleton

/-!
# What is read is what the grammar derives

Each reader of the notation against its relation in the grammar, from layout up to whole texts. The readers are greedy and
never go back behind a connective; nothing is lost by that, because no token starts with layout, and because two
connectives never stand in one place (`Notation.skip?_connective_eq_none`).
-/

namespace GateRules

/-! ## Layout -/

theorem Notation.mem_spaces_iff {c : Char} : c ∈ [' ', '\t', '\n', '\r', '\x0c'] ↔ isSpace c = true := by
  simp [isSpace, or_assoc]

/-- A comment may go on through all characters but the two that end lines. -/
theorem Notation.all_isCommentChar_iff {body : List Char} :
    (∀ c ∈ body, isCommentChar c = true) ↔ '\r' ∉ body ∧ '\n' ∉ body := by
  simp only [isCommentChar, Bool.and_eq_true, bne_iff_ne]
  constructor
  · intro h
    exact ⟨fun hr => (h _ hr).1 rfl, fun hn => (h _ hn).2 rfl⟩
  · rintro ⟨hr, hn⟩ c hc
    exact ⟨fun he => hr (he ▸ hc), fun he => hn (he ▸ hc)⟩

theorem Notation.lineEnd_iff {cs : List Char} : LineEnd cs ↔ atLineEnd cs = true := by
  constructor
  · rintro (_ | _ | _) <;> rfl
  · intro h
    unfold atLineEnd at h
    split at h
    · exact .endOfText
    · exact .lineFeed _
    · exact .returnAndFeed _
    · cases h

/-- What starts where a line ends does not go on with a comment. -/
theorem Notation.dropWhile_of_lineEnd {rest : List Char} (h : LineEnd rest) : rest.dropWhile isCommentChar = rest := by
  cases h <;> rfl

/-- A comment goes up to the end of its line. -/
theorem Notation.dropWhile_comment {body rest : List Char} (noReturn : '\r' ∉ body) (noFeed : '\n' ∉ body)
    (ended : LineEnd rest) : (body ++ rest).dropWhile isCommentChar = rest := by
  rw [List.dropWhile_append_of_pos (all_isCommentChar_iff.2 ⟨noReturn, noFeed⟩), dropWhile_of_lineEnd ended]

/-- To pass over layout is to pass over its first piece and then over the rest. -/
theorem Notation.skipLayout_of_piece {cs rest : List Char} (h : LayoutPiece cs rest) : skipLayout cs = skipLayout rest := by
  cases h with
  | space h => rw [skipLayout, if_pos (mem_spaces_iff.1 h)]
  | comment noReturn noFeed ended =>
    rw [skipLayout, if_neg (by decide), dropWhile_comment noReturn noFeed ended,
      if_pos ⟨rfl, lineEnd_iff.1 ended⟩]

/-- Layout in front makes no difference to what is left when layout is passed over. -/
theorem Notation.skipLayout_of_layout {cs rest : List Char} (h : Layout cs rest) : skipLayout cs = skipLayout rest := by
  induction h using Relation.ReflTransGen.head_induction_on with
  | refl => rfl
  | head piece _ ih => rw [skipLayout_of_piece piece, ih]

theorem Notation.skipLayout_nil : skipLayout [] = [] := by
  rw [skipLayout]

/-- What is passed over is layout. -/
theorem Notation.layout_skipLayout (cs : List Char) : Layout cs (skipLayout cs) := by
  fun_induction skipLayout cs with
  | case1 => exact .refl
  | case2 c cs hc ih => exact .head (.space (mem_spaces_iff.2 hc)) ih
  | case3 c cs hc hline ih =>
    obtain ⟨rfl, hend⟩ := hline
    obtain ⟨noReturn, noFeed⟩ := all_isCommentChar_iff.1 fun x (hx : x ∈ cs.takeWhile isCommentChar) =>
      List.mem_takeWhile_imp hx
    have piece := LayoutPiece.comment noReturn noFeed (lineEnd_iff.2 hend)
    rw [List.takeWhile_append_dropWhile] at piece
    exact .head piece ih
  | case4 => exact .refl

/-- Everything is passed over exactly when there is nothing but layout. -/
theorem Notation.skipLayout_eq_nil_iff {cs : List Char} : skipLayout cs = [] ↔ Layout cs [] := by
  constructor
  · intro h
    exact h ▸ layout_skipLayout cs
  · intro h
    rw [skipLayout_of_layout h, skipLayout_nil]

/-! ## Tokens -/

theorem Notation.identifierStart_iff {c : Char} : IdentifierStart c ↔ isIdentifierStart c = true := by
  have upper : c.isUpper = true ↔ 'A' ≤ c ∧ c ≤ 'Z' := decide_eq_true_iff
  have lower : c.isLower = true ↔ 'a' ≤ c ∧ c ≤ 'z' := by
    rw [show c.isLower = (decide ('a' ≤ c) && decide (c ≤ 'z')) from rfl, Bool.and_eq_true, decide_eq_true_iff,
      decide_eq_true_iff]
  have letter : c.isAlpha = true ↔ c.isUpper = true ∨ c.isLower = true := Bool.or_eq_true _ _ ▸ Iff.rfl
  rw [IdentifierStart, isIdentifierStart, Bool.or_eq_true, letter, upper, lower, beq_iff_eq, or_assoc]

theorem Notation.identifierPart_iff {c : Char} : IdentifierPart c ↔ isIdentifierChar c = true := by
  rw [IdentifierPart, identifierStart_iff]
  simp only [isIdentifierStart, isIdentifierChar, Char.isAlphanum, Char.isDigit, Bool.or_eq_true, Bool.and_eq_true,
    decide_eq_true_eq, beq_iff_eq, Char.le_def]
  grind

/-- An identifier is read exactly where there is one, and as far as it goes. -/
theorem Notation.readIdentifier_eq_some_iff {cs name rest : List Char} :
    readIdentifier cs = some (name, rest) ↔ Identifier cs name rest := by
  constructor
  · intro h
    cases cs with
    | nil => cases h
    | cons c cs =>
      simp only [readIdentifier, Option.ite_none_right_eq_some, Option.some.injEq, Prod.mk.injEq] at h
      obtain ⟨hc, rfl, rfl⟩ := h
      have ended : ∀ x, (cs.dropWhile isIdentifierChar).head? = some x → ¬IdentifierPart x := by
        intro x hx
        have := List.head?_dropWhile_not isIdentifierChar cs
        rw [hx] at this
        rw [identifierPart_iff, this]
        decide
      have parts : ∀ x ∈ cs.takeWhile isIdentifierChar, IdentifierPart x := fun x hx =>
        identifierPart_iff.2 (List.mem_takeWhile_imp hx)
      have := Identifier.mk (identifierStart_iff.2 hc) parts ended
      rwa [List.takeWhile_append_dropWhile] at this
  · rintro ⟨start, parts, ended⟩
    rename_i c more
    have inside : ∀ x ∈ more, isIdentifierChar x = true := fun x hx => identifierPart_iff.1 (parts x hx)
    have outside : rest.takeWhile isIdentifierChar = [] ∧ rest.dropWhile isIdentifierChar = rest := by
      cases rest with
      | nil => exact ⟨rfl, rfl⟩
      | cons x rest =>
        have hx : ¬isIdentifierChar x = true := fun hx => ended x rfl (identifierPart_iff.2 hx)
        exact ⟨List.takeWhile_cons_of_neg hx, List.dropWhile_cons_of_neg hx⟩
    rw [readIdentifier, if_pos (identifierStart_iff.1 start), List.takeWhile_append_of_pos inside,
      List.dropWhile_append_of_pos inside, outside.1, outside.2, List.append_nil]

/-- A backslash and a character are one item, whatever the character is. -/
theorem Notation.item_unescape (c : Char) : Item ['\\', c] (unescape c) := by
  unfold unescape
  split
  · exact .quote
  · exact .backslash
  · exact .lineFeed
  · exact .tab
  · exact .other (by simp_all)

/-- A backslash stays in front of a character that it does not escape. -/
theorem Notation.unescape_of_notMem {c : Char} (h : c ∉ ['"', '\\', 'n', 't']) : unescape c = ['\\', c] := by
  unfold unescape
  split <;> simp_all

/-- The items of a string are read up to its closing quote, which is the first that is no part of an item. -/
theorem Notation.readItems_eq_some_iff {cs text rest : List Char} :
    readItems cs = some (text, rest) ↔ ∃ items, Items items text ∧ cs = items ++ '"' :: rest := by
  constructor
  · intro h
    fun_induction readItems cs generalizing text rest with
    | case1 => cases h
    | case2 cs =>
      cases h
      exact ⟨[], .nil, rfl⟩
    | case3 c cs ih =>
      obtain ⟨⟨more, after⟩, hr, hi⟩ := Option.map_eq_some_iff.1 h
      cases hi
      obtain ⟨items, hitems, rfl⟩ := ih hr
      exact ⟨'\\' :: c :: items, .cons (item_unescape c) hitems, rfl⟩
    | case4 c cs notQuote notEscape ih =>
      obtain ⟨⟨more, after⟩, hr, hi⟩ := Option.map_eq_some_iff.1 h
      cases hi
      obtain ⟨items, hitems, rfl⟩ := ih hr
      -- a backslash here would be the last character, and then the closing quote would be missing
      have notBackslash : c ≠ '\\' := by
        rintro rfl
        cases hitems with
        | nil => exact notEscape '"' _ rfl rfl
        | cons first more => cases first <;> exact notEscape _ _ rfl rfl
      exact ⟨c :: items, .cons (.plain notQuote notBackslash) hitems, rfl⟩
  · rintro ⟨items, hitems, rfl⟩
    induction hitems with
    | nil => rfl
    | cons first more ih =>
      cases first with
      | plain notQuote notBackslash => simp_all [readItems]
      | quote | backslash | lineFeed | tab => simp [readItems, ih, unescape]
      | other h => simp [readItems, ih, unescape_of_notMem h]

/-- A string is read exactly where there is one. -/
theorem Notation.readQuoted_eq_ok_iff {expected : Expected} {cs text rest : List Char} :
    readQuoted expected cs = .ok (text, rest) ↔ Quoted cs text rest := by
  constructor
  · intro h
    unfold readQuoted at h
    split at h
    · split at h
      · rename_i hr
        cases h
        obtain ⟨items, hitems, rfl⟩ := readItems_eq_some_iff.1 hr
        exact .mk hitems
      · cases h
    · cases h
  · rintro ⟨hitems⟩
    simp only [readQuoted, readItems_eq_some_iff.2 ⟨_, hitems, rfl⟩]

/-- An operator is read as a name. -/
theorem Notation.readOperator_eq_ok_iff {cs name rest : List Char} :
    readOperator cs = .ok (name, rest) ↔ Identifier cs name rest := by
  rw [← readIdentifier_eq_some_iff, readOperator]
  cases readIdentifier cs <;> simp

/-- No identifier starts where a string does. -/
theorem Notation.readIdentifier_of_quoted {cs text rest : List Char} (h : Quoted cs text rest) :
    readIdentifier cs = none := by
  cases h
  rfl

/-- A field is read as a name or as a quoted string. -/
theorem Notation.readField_eq_ok_iff {cs name rest : List Char} :
    readField cs = .ok (name, rest) ↔ Field cs name rest := by
  constructor
  · intro h
    unfold readField at h
    split at h
    · rename_i hi
      cases h
      exact .bare (readIdentifier_eq_some_iff.1 hi)
    · exact .quoted (readQuoted_eq_ok_iff.1 h)
  · rintro (h | h)
    · simp only [readField, readIdentifier_eq_some_iff.2 h]
    · simp only [readField, readIdentifier_of_quoted h, readQuoted_eq_ok_iff.2 h]

/-! ## No token starts with layout -/

/-- The characters that layout may start with. -/
def Notation.layoutStarts : List Char := ['#', ' ', '\t', '\n', '\r', '\x0c']

theorem Notation.eq_of_mem_layoutStarts {c : Char} (h : c ∈ layoutStarts) :
    c = '#' ∨ c = ' ' ∨ c = '\t' ∨ c = '\n' ∨ c = '\r' ∨ c = '\x0c' := by
  simpa only [layoutStarts, List.mem_cons, List.not_mem_nil, or_false] using h

/-- Nothing is passed over where layout cannot start. -/
theorem Notation.skipLayout_cons {c : Char} {cs : List Char} (h : c ∉ layoutStarts) : skipLayout (c :: cs) = c :: cs := by
  have noSpace : ¬isSpace c = true := fun hs => h (List.mem_cons_of_mem '#' (mem_spaces_iff.2 hs))
  have noComment : c ≠ '#' := fun hc => h (hc ▸ List.mem_cons_self)
  rw [skipLayout, if_neg noSpace, if_neg (fun hc => noComment hc.1)]

/-- No layout stands in front of a name. -/
theorem Notation.skipLayout_of_identifier {cs name rest : List Char} (h : Identifier cs name rest) :
    skipLayout cs = cs := by
  obtain ⟨start, -, -⟩ := h
  refine skipLayout_cons fun hc => ?_
  rcases eq_of_mem_layoutStarts hc with rfl | rfl | rfl | rfl | rfl | rfl <;>
    exact absurd (identifierStart_iff.1 start) (by decide)

/-- No layout stands in front of an opening quote. -/
theorem Notation.skipLayout_of_quoted {cs text rest : List Char} (h : Quoted cs text rest) : skipLayout cs = cs := by
  cases h
  exact skipLayout_cons (by decide)

/-- No layout stands in front of a field. -/
theorem Notation.skipLayout_of_field {cs name rest : List Char} (h : Field cs name rest) : skipLayout cs = cs := by
  cases h with
  | bare h => exact skipLayout_of_identifier h
  | quoted h => exact skipLayout_of_quoted h

/-- A connective is taken off exactly where it stands, and the white space behind it is left. -/
theorem Notation.stripWord_eq_some_iff {word cs rest : List Char} :
    stripWord word cs = some rest ↔ Connective word cs rest := by
  constructor
  · intro h
    fun_induction stripWord word cs with
    | case1 c cs hc =>
      cases h
      have gap : c ∈ [' ', '\t', '\n', '\r'] := by simpa [isGap, or_assoc] using hc
      exact @Connective.mk [] [] cs c rfl gap
    | case2 => cases h
    | case3 word c cs ih =>
      obtain ⟨spelt, gap⟩ := ih h
      rename_i letters x rest
      have here : (c :: letters).map Char.toLower = c.toLower :: word := by rw [List.map_cons, spelt]
      exact .mk here gap
    | case4 => cases h
    | case5 => cases h
  · rintro ⟨spelt, gap⟩
    rename_i letters rest x
    subst spelt
    induction letters with
    | nil =>
      have : isGap x = true := by simpa [isGap, or_assoc] using gap
      simp [stripWord, this]
    | cons l letters ih => simpa [stripWord] using ih

/-- A word in any letter case does not start with layout, if the word in lower case does not. -/
theorem Notation.skipLayout_letters {w : Char} {word letters : List Char} (hw : w ∉ layoutStarts)
    (spelt : letters.map Char.toLower = w :: word) (cs : List Char) : skipLayout (letters ++ cs) = letters ++ cs := by
  cases letters with
  | nil => cases spelt
  | cons l letters =>
    obtain ⟨rfl, -⟩ := List.cons.inj spelt
    refine skipLayout_cons fun hl => hw ?_
    rcases eq_of_mem_layoutStarts hl with rfl | rfl | rfl | rfl | rfl | rfl <;> decide

/-- A connective does not start with layout, in whatever case its letters are, if its word does not. -/
theorem Notation.skipLayout_of_connective {w : Char} {word cs rest : List Char} (hw : w ∉ layoutStarts)
    (h : Connective (w :: word) cs rest) : skipLayout cs = cs := by
  obtain ⟨spelt, -⟩ := h
  exact skipLayout_letters hw spelt _

/-- To pass over layout is to come to the connective behind it. -/
theorem Notation.skipLayout_eq_of_connective {w : Char} {word cs atWord rest : List Char} (hw : w ∉ layoutStarts)
    (layout : Layout cs atWord) (joined : Connective (w :: word) atWord rest) : skipLayout cs = atWord := by
  rw [skipLayout_of_layout layout, skipLayout_of_connective hw joined]

/-- A connective is passed over exactly if there is one behind layout. -/
theorem Notation.skip?_connective_eq_some_iff {w : Char} {word cs rest : List Char} (hw : w ∉ layoutStarts) :
    (connective (w :: word)).skip? cs = some rest ↔
      ∃ atWord, Layout cs atWord ∧ Connective (w :: word) atWord rest := by
  constructor
  · intro h
    exact ⟨skipLayout cs, layout_skipLayout cs, stripWord_eq_some_iff.1 h⟩
  · rintro ⟨atWord, layout, joined⟩
    have here := skipLayout_eq_of_connective hw layout joined
    exact stripWord_eq_some_iff.2 (here ▸ joined)

/-- Two connectives that start with different letters never stand in one place. -/
theorem Notation.skip?_connective_eq_none {w v : Char} {word other cs rest : List Char} (hw : w ∉ layoutStarts)
    (hne : w ≠ v) (h : (connective (w :: word)).skip? cs = some rest) :
    (connective (v :: other)).skip? cs = none := by
  obtain ⟨atWord, layout, joined⟩ := (skip?_connective_eq_some_iff hw).1 h
  have here := skipLayout_eq_of_connective hw layout joined
  obtain ⟨spelt, -⟩ := joined
  rename_i letters rest x
  cases letters with
  | nil => cases spelt
  | cons l letters =>
    simp only [List.map_cons, List.cons.injEq] at spelt
    have : l.toLower ≠ v := spelt.1 ▸ hne
    simp [connective, here, stripWord, this]

/-! ## Terms -/

/-- A term is read exactly where there is one. -/
theorem Notation.readTerm_eq_ok_iff_derivesTerm {cs rest : List Char} {t : Term} :
    readTerm cs = .ok (t, rest) ↔ DerivesTerm cs t rest := by
  rw [readTerm_eq_ok_iff]
  constructor
  · rintro ⟨field, operator, value, afterField, afterOperator, hf, ho, hv, rfl⟩
    exact .mk (layout_skipLayout _) (readField_eq_ok_iff.1 hf) (layout_skipLayout _) (readOperator_eq_ok_iff.1 ho)
      (layout_skipLayout _) (readQuoted_eq_ok_iff.1 hv)
  · rintro ⟨layout₁, fieldToken, layout₂, operatorToken, layout₃, valueToken⟩
    have hf := readField_eq_ok_iff.2 fieldToken
    have ho := readOperator_eq_ok_iff.2 operatorToken
    have hv := (@readQuoted_eq_ok_iff .value _ _ _).2 valueToken
    rw [← skipLayout_of_field fieldToken, ← skipLayout_of_layout layout₁] at hf
    rw [← skipLayout_of_identifier operatorToken, ← skipLayout_of_layout layout₂] at ho
    rw [← skipLayout_of_quoted valueToken, ← skipLayout_of_layout layout₃] at hv
    exact ⟨_, _, _, _, _, hf, ho, hv, rfl⟩

/-- A term may have any layout in front of it. -/
theorem Notation.DerivesTerm.afterLayout {cs cs' rest : List Char} {t : Term} (layout : Layout cs cs')
    (h : DerivesTerm cs' t rest) : DerivesTerm cs t rest := by
  obtain ⟨layout₁, fieldToken, layout₂, operatorToken, layout₃, valueToken⟩ := h
  exact .mk (layout.trans layout₁) fieldToken layout₂ operatorToken layout₃ valueToken

/-- The layout in front of a term may be left out. -/
theorem Notation.DerivesTerm.skipLayout {cs rest : List Char} {t : Term} (h : DerivesTerm cs t rest) :
    DerivesTerm (skipLayout cs) t rest := by
  obtain ⟨layout₁, fieldToken, layout₂, operatorToken, layout₃, valueToken⟩ := h
  rw [skipLayout_of_layout layout₁, skipLayout_of_field fieldToken]
  exact .mk .refl fieldToken layout₂ operatorToken layout₃ valueToken

/-! ## Chains -/

/-- A chain is carried over to another text if its first item is. -/
theorem Notation.Chain.imp_first {α : Type} {item : List Char → α → List Char → Prop} {word cs cs' rest : List Char}
    {as : List α} (first : ∀ a after, item cs a after → item cs' a after) (h : Chain item word cs as rest) :
    Chain item word cs' as rest := by
  cases h with
  | last h => exact .last (first _ _ h)
  | link h layout joined more => exact .link (first _ _ h) layout joined more

/-- After a separator, to read more items is to read a sequence of items. -/
theorem Reader.many_of_some {r : Reader ε α} {s : Separator} {cs here : List Char} (h : s.skip? cs = some here) :
    r.many s cs = (r.sepBy s).run here := by
  cases hr : r.run here with
  | error e => rw [many_of_error h hr]; simp [sepBy, hr]
  | ok read => rw [many_of_ok h hr]; simp [sepBy, hr]

/-- After an item, what is read as items with a connective before each makes the item longer to a chain. The chain ends
where an item may end and where no connective follows. -/
theorem Notation.chain_of_many {α : Type} {r : Reader Failure α} {item : List Char → α → List Char → Prop}
    {word start cs rest : List Char} {a : α} {as : List α} {mayEnd : List Char → Prop}
    (sound : ∀ {cs a rest}, r.run cs = .ok (a, rest) → item cs a rest ∧ mayEnd rest)
    (first : item start a cs ∧ mayEnd cs) (h : r.many (connective word) cs = .ok (as, rest)) :
    Chain item word start (a :: as) rest ∧ mayEnd rest ∧ (connective word).skip? rest = none := by
  fun_induction r.many (connective word) cs generalizing start a as rest with
  | case1 cs hs =>
    cases h
    exact ⟨.last first.1, first.2, hs⟩
  | case2 => cases h
  | case3 cs here hs b after hr ih =>
    obtain ⟨more, hm, rfl⟩ := Reader.mapValue_eq_ok_iff.1 h
    obtain ⟨chain, stop⟩ := ih (sound hr) hm
    exact ⟨.link first.1 (layout_skipLayout cs) (stripWord_eq_some_iff.1 hs) chain, stop⟩

/-- What is read as items with a connective between each two is a chain of items. -/
theorem Notation.chain_of_run {α : Type} {r : Reader Failure α} {item : List Char → α → List Char → Prop}
    {word cs rest : List Char} {as : List α} (mayEnd : List Char → Prop)
    (sound : ∀ {cs a rest}, r.run cs = .ok (a, rest) → item cs a rest ∧ mayEnd rest)
    (h : (r.sepBy (connective word)).run cs = .ok (as, rest)) :
    Chain item word cs as rest ∧ mayEnd rest ∧ (connective word).skip? rest = none := by
  match hr : r.run cs with
  | .error e => simp [Reader.sepBy, hr] at h
  | .ok (a, after) =>
    simp only [Reader.sepBy, hr] at h
    obtain ⟨more, hm, rfl⟩ := Reader.mapValue_eq_ok_iff.1 h
    exact chain_of_many sound (sound hr) hm

/-- A chain of items is read as such if no connective follows it, and if each item is read where it may end: where a
connective follows, and where the whole chain ends. -/
theorem Notation.run_of_chain {α : Type} {r : Reader Failure α} {item : List Char → α → List Char → Prop}
    {w : Char} {word cs rest : List Char} {as : List α} (mayEnd : List Char → Prop)
    (hw : w ∉ layoutStarts)
    (complete : ∀ {cs a rest}, item cs a rest → mayEnd rest → r.run cs = .ok (a, rest))
    (joint : ∀ {cs next}, (connective (w :: word)).skip? cs = some next → mayEnd cs)
    (h : Chain item (w :: word) cs as rest) (ended : mayEnd rest) (stop : (connective (w :: word)).skip? rest = none) :
    (r.sepBy (connective (w :: word))).run cs = .ok (as, rest) := by
  induction h with
  | last h => simp [Reader.sepBy, complete h ended, Reader.many_of_none stop, Reader.mapValue_ok]
  | @link cs after atWord next rest a as h layout joined more ih =>
    have found := (skip?_connective_eq_some_iff hw).2 ⟨atWord, layout, joined⟩
    have tail := ih ended stop
    rw [← Reader.many_of_some found] at tail
    simp [Reader.sepBy, complete h (joint found), tail, Reader.mapValue_ok]

/-- An AND-group is read exactly where there is one that no `and` follows. -/
theorem Notation.run_group_eq_ok_iff {cs rest : List Char} {terms : List Term} :
    group.run cs = .ok (terms, rest) ↔ DerivesGroup cs terms rest ∧ Notation.and.skip? rest = none := by
  constructor
  · intro h
    obtain ⟨chain, -, stop⟩ := chain_of_run (fun _ => True)
      (fun ht => ⟨readTerm_eq_ok_iff_derivesTerm.1 ht, trivial⟩) h
    exact ⟨chain, stop⟩
  · rintro ⟨h, stop⟩
    exact run_of_chain (fun _ => True) (by decide)
      (fun ht _ => readTerm_eq_ok_iff_derivesTerm.2 ht) (fun _ => trivial) h trivial stop

/-- The groups of a rule are read exactly where there are some that no connective follows. -/
theorem Notation.run_groups_eq_ok_iff {cs rest : List Char} {draft : Draft} :
    groups.run cs = .ok (draft, rest) ↔
      Chain DerivesGroup ['o', 'r'] cs draft rest ∧ Notation.and.skip? rest = none ∧ Notation.or.skip? rest = none := by
  constructor
  · exact chain_of_run (fun rest => Notation.and.skip? rest = none) run_group_eq_ok_iff.1
  · rintro ⟨h, noAnd, noOr⟩
    exact run_of_chain (fun rest => Notation.and.skip? rest = none) (by decide)
      (fun h hr => run_group_eq_ok_iff.2 ⟨h, hr⟩) (skip?_connective_eq_none (by decide) (by decide))
      h noAnd noOr

/-! ## Whole texts -/

/-- Groups of terms may have any layout in front of them. -/
theorem Notation.groups_afterLayout {cs cs' rest : List Char} {draft : Draft} (layout : Layout cs cs')
    (h : Chain DerivesGroup ['o', 'r'] cs' draft rest) : Chain DerivesGroup ['o', 'r'] cs draft rest :=
  h.imp_first fun _ _ hg => hg.imp_first fun _ _ ht => ht.afterLayout layout

/-- The layout in front of groups of terms may be left out. -/
theorem Notation.groups_skipLayout {cs rest : List Char} {draft : Draft}
    (h : Chain DerivesGroup ['o', 'r'] cs draft rest) : Chain DerivesGroup ['o', 'r'] (skipLayout cs) draft rest :=
  h.imp_first fun _ _ hg => hg.imp_first fun _ _ ht => ht.skipLayout

/-- No connective follows where there is nothing but layout. -/
theorem Notation.skip?_connective_of_layout {w : Char} {word cs : List Char} (h : Layout cs []) :
    (connective (w :: word)).skip? cs = none := by
  simp [connective, skipLayout_eq_nil_iff.2 h, stripWord]

/-- A text is read as a draft exactly when the grammar derives the draft. -/
theorem Notation.readDraft_eq_ok_iff {cs : List Char} {draft : Draft} :
    readDraft cs = .ok draft ↔ Derives cs draft := by
  have layout := layout_skipLayout cs
  constructor
  · intro h
    unfold readDraft at h
    split at h
    · rename_i hn
      cases h
      exact .nothing (skipLayout_eq_nil_iff.1 hn)
    · split at h
      · cases h
      · rename_i draft' rest hr
        split at h
        · rename_i hn
          cases h
          exact .rule (groups_afterLayout layout (run_groups_eq_ok_iff.1 hr).1) (skipLayout_eq_nil_iff.1 hn)
        · cases h
  · rintro (h | ⟨h, behind⟩)
    · simp only [readDraft, skipLayout_eq_nil_iff.2 h]
    · rename_i rest
      have hr : groups.run (skipLayout cs) = .ok (draft, rest) := run_groups_eq_ok_iff.2
        ⟨groups_skipLayout h, skip?_connective_of_layout behind, skip?_connective_of_layout behind⟩
      unfold readDraft
      split
      · rename_i hc
        rw [hc] at hr
        exact absurd (groups.shortens hr) (Nat.not_lt_zero _)
      · simp only [hr, skipLayout_eq_nil_iff.2 behind]

/-- A text is read as exactly what the grammar derives from it. -/
theorem Notation.read_eq_ok_iff {text : String} {draft : Draft} : read text = .ok draft ↔ Derives text.toList draft := by
  rw [← readDraft_eq_ok_iff, read]
  cases readDraft text.toList with
  | error failure => exact ⟨(nomatch ·), (nomatch ·)⟩
  | ok found =>
    constructor
    · intro h
      cases h
      rfl
    · intro h
      cases h
      rfl

/-- A text is read exactly when the grammar derives it, it is read as what the grammar derives, and the grammar never
derives two drafts for one text; a text that is refused has no derivation, however far it was read before. -/
theorem Notation.read_exactly_grammar (text : String) :
    (∀ draft, read text = .ok draft ↔ Derives text.toList draft) ∧
    {draft | Derives text.toList draft}.Subsingleton ∧
    ((∃ misread, read text = .error misread) ↔ ¬∃ draft, Derives text.toList draft) := by
  refine ⟨fun _ => read_eq_ok_iff, ?_, ?_⟩
  · intro a ha b hb
    exact Except.ok.inj ((read_eq_ok_iff.2 ha).symm.trans (read_eq_ok_iff.2 hb))
  · cases hr : read text with
    | error misread =>
      refine ⟨fun _ => ?_, fun _ => ⟨misread, rfl⟩⟩
      rintro ⟨draft, hd⟩
      exact nomatch hr.symm.trans (read_eq_ok_iff.2 hd)
    | ok draft =>
      refine ⟨?_, fun h => absurd ⟨draft, read_eq_ok_iff.1 hr⟩ h⟩
      rintro ⟨_, h⟩
      cases h

end GateRules
