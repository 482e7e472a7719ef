import GateRules.Proofs.Stopping

/-!
# Repetitions come to an end

Layout is passed over, and terms and groups are read, by attempting the same again and again. Here each of the three repetitions
is told attempt by attempt, with the place to which an attempt comes before it misses and with the case that something is taken
and nothing used up, which would go on forever. Whatever is taken leaves a shorter end of the text (`Notation.Advances`), and so
the repetition has exactly one outcome and never stalls (`Notation.Advances.ends`). The outcome is what `Notation.skipLayout` and
`Reader.many` give.
-/

namespace GateRules

/-! ## Attempts and repetitions -/

/-- What an attempt to take something from the front of a text comes to. -/
inductive Notation.Attempt (α : Type) where
  /-- It is there, and `rest` follows it. -/
  | taken (a : α) (rest : List Char)
  /-- It is not there, and the attempt came as far as `reached`. -/
  | missed (reached : List Char)
  /-- It had to be there and is not. -/
  | refused (failure : Failure)
deriving DecidableEq

/-- What attempting the same again and again comes to. -/
inductive Notation.Outcome (α : Type) where
  /-- These were taken, and `rest` follows them. -/
  | ended (as : List α) (rest : List Char)
  | refused (failure : Failure)
  /-- Something was taken that used nothing up. -/
  | stalled

/-- The outcome when one more was taken before. -/
def Notation.Outcome.cons (a : α) : Outcome α → Outcome α
  | .ended as rest => .ended (a :: as) rest
  | .refused failure => .refused failure
  | .stalled => .stalled

/-- What a reader of many items gives, as an outcome. -/
def Notation.Outcome.ofRead : Except Failure (List α × List Char) → Outcome α
  | .ok (as, rest) => .ended as rest
  | .error failure => .refused failure

/-- The same is attempted again and again, each time behind what was taken last. When an attempt misses the repetition has ended,
and it goes back to where that attempt began. -/
inductive Notation.Repetition (attempt : List Char → Attempt α) : List Char → Outcome α → Prop
  | ended {cs reached : List Char} (h : attempt cs = .missed reached) : Repetition attempt cs (.ended [] cs)
  | refused {cs : List Char} {failure : Failure} (h : attempt cs = .refused failure) :
      Repetition attempt cs (.refused failure)
  | stalled {cs rest : List Char} {a : α} (h : attempt cs = .taken a rest) (same : rest.length = cs.length) :
      Repetition attempt cs .stalled
  | again {cs rest : List Char} {a : α} {outcome : Outcome α} (h : attempt cs = .taken a rest)
      (moved : rest.length ≠ cs.length) (more : Repetition attempt rest outcome) : Repetition attempt cs (outcome.cons a)

/-- What is taken leaves a shorter end of the text. -/
def Notation.Advances (attempt : List Char → Attempt α) : Prop :=
  ∀ cs a rest, attempt cs = .taken a rest → rest <:+ cs ∧ rest.length < cs.length

/-- A repetition that comes to an end on every text, and where it ended it is back where the attempt began that missed. -/
structure Notation.Ends (attempt : List Char → Attempt α) : Prop where
  advances : Advances attempt
  outcome : ∀ cs, ∃! outcome, Repetition attempt cs outcome
  notStalled : ∀ cs, ¬Repetition attempt cs .stalled
  back : ∀ cs as rest, Repetition attempt cs (.ended as rest) → ∃ reached, attempt rest = .missed reached

theorem Notation.Outcome.cons_eq_stalled_iff {a : α} {outcome : Outcome α} :
    outcome.cons a = .stalled ↔ outcome = .stalled := by
  cases outcome <;> simp [cons]

theorem Notation.Outcome.ofRead_mapValue (a : α) (read : Except Failure (List α × List Char)) :
    ofRead (Reader.mapValue (a :: ·) read) = (ofRead read).cons a := by
  cases read <;> rfl

/-- A repetition has one outcome only. -/
theorem Notation.Repetition.unique {attempt : List Char → Attempt α} {cs : List Char} {outcome other : Outcome α}
    (h : Repetition attempt cs outcome) (h' : Repetition attempt cs other) : outcome = other := by
  induction h generalizing other with
  | ended h =>
    cases h' with
    | ended => rfl
    | refused h' | stalled h' | again h' => cases h.symm.trans h'
  | refused h =>
    cases h' with
    | refused h' => cases h.symm.trans h'; rfl
    | ended h' | stalled h' | again h' => cases h.symm.trans h'
  | stalled h same =>
    cases h' with
    | stalled => rfl
    | again h' moved => cases h.symm.trans h'; exact absurd same moved
    | ended h' | refused h' => cases h.symm.trans h'
  | again h moved _ ih =>
    cases h' with
    | again h' _ more => cases h.symm.trans h'; rw [ih more]
    | stalled h' same => cases h.symm.trans h'; exact absurd same moved
    | ended h' | refused h' => cases h.symm.trans h'

/-- Where a repetition ended an attempt was made, and it missed. -/
theorem Notation.Repetition.missed_of_ended {attempt : List Char → Attempt α} {cs rest : List Char} {as : List α}
    (h : Repetition attempt cs (.ended as rest)) : ∃ reached, attempt rest = .missed reached := by
  generalize ho : Outcome.ended as rest = outcome at h
  induction h generalizing as with
  | ended h =>
    cases ho
    exact ⟨_, h⟩
  | refused | stalled => cases ho
  | @again _ _ _ outcome _ _ _ ih =>
    cases outcome with
    | ended as' rest' =>
      cases ho
      exact ih rfl
    | refused | stalled => cases ho

/-- As long as the text gets shorter, a repetition goes on to an outcome. -/
theorem Notation.Advances.exists_outcome {attempt : List Char → Attempt α} (h : Advances attempt) (cs : List Char) :
    ∃ outcome, Repetition attempt cs outcome := by
  induction hn : cs.length using Nat.strong_induction_on generalizing cs with
  | h n ih =>
    subst hn
    cases ha : attempt cs with
    | missed reached => exact ⟨_, .ended ha⟩
    | refused failure => exact ⟨_, .refused ha⟩
    | taken a rest =>
      have shorter := (h cs a rest ha).2
      obtain ⟨outcome, more⟩ := ih rest.length shorter rest rfl
      exact ⟨_, .again ha (Nat.ne_of_lt shorter) more⟩

/-- A repetition of an attempt that advances does not stall. -/
theorem Notation.Advances.not_stalled {attempt : List Char → Attempt α} (h : Advances attempt) {cs : List Char} :
    ¬Repetition attempt cs .stalled := by
  intro run
  generalize ho : Outcome.stalled = outcome at run
  induction run with
  | ended | refused => cases ho
  | stalled ha same => exact absurd same (Nat.ne_of_lt (h _ _ _ ha).2)
  | again _ _ _ ih => exact ih (Outcome.cons_eq_stalled_iff.1 ho.symm).symm

/-- A repetition ends on every text if each attempt leaves a shorter end of it. -/
theorem Notation.Advances.ends {attempt : List Char → Attempt α} (h : Advances attempt) : Ends attempt where
  advances := h
  outcome cs := by
    obtain ⟨outcome, run⟩ := h.exists_outcome cs
    exact ⟨outcome, run, fun _ other => other.unique run⟩
  notStalled _ := h.not_stalled
  back _ _ _ run := run.missed_of_ended

/-! ## Pieces of layout -/

/-- An attempt at a piece of layout: white space as far as it goes, or a comment. That a `#` starts no comment is noticed only
where its line breaks off. -/
def Notation.tryPiece : List Char → Attempt (List Char)
  | [] => .missed []
  | c :: cs =>
    if isSpace c then .taken (c :: cs.takeWhile isSpace) (cs.dropWhile isSpace)
    else if c = '#' then
      if atLineEnd (cs.dropWhile isCommentChar) then
        .taken (c :: cs.takeWhile isCommentChar) (cs.dropWhile isCommentChar)
      else .missed (cs.dropWhile isCommentChar)
    else .missed (c :: cs)

/-- To pass over some white space is to begin to pass over layout. -/
theorem Notation.skipLayout_dropWhile {p : Char → Bool} (space : ∀ c, p c = true → isSpace c = true) (cs : List Char) :
    skipLayout (cs.dropWhile p) = skipLayout cs := by
  induction cs with
  | nil => rfl
  | cons c cs ih =>
    by_cases hc : p c = true
    · rw [List.dropWhile_cons_of_pos hc, ih, skipLayout_of_piece (.space (mem_spaces_iff.2 (space c hc)))]
    · rw [List.dropWhile_cons_of_neg hc]

/-- Either a piece is taken, or there is nothing to pass over. -/
theorem Notation.tryPiece_cases (cs : List Char) :
    (∃ piece rest, tryPiece cs = .taken piece rest ∧ piece ≠ [] ∧ piece ++ rest = cs ∧ skipLayout cs = skipLayout rest) ∨
      ∃ reached, tryPiece cs = .missed reached ∧ skipLayout cs = cs := by
  fun_cases tryPiece cs with
  | case1 => exact .inr ⟨[], rfl, skipLayout_nil⟩
  | case2 c cs hc =>
    refine .inl ⟨_, _, rfl, List.cons_ne_nil _ _, ?_, ?_⟩
    · rw [List.cons_append, List.takeWhile_append_dropWhile]
    · rw [skipLayout_dropWhile (fun _ => id), skipLayout, if_pos hc]
  | case3 cs ended hc =>
    refine .inl ⟨_, _, rfl, List.cons_ne_nil _ _, ?_, ?_⟩
    · rw [List.cons_append, List.takeWhile_append_dropWhile]
    · rw [skipLayout, if_neg hc, if_pos ⟨rfl, ended⟩]
  | case4 cs goesOn hc =>
    refine .inr ⟨_, rfl, ?_⟩
    rw [skipLayout, if_neg hc, if_neg fun comment => goesOn comment.2]
  | case5 c cs hc noHash =>
    refine .inr ⟨_, rfl, ?_⟩
    rw [skipLayout, if_neg hc, if_neg fun comment => noHash comment.1]

/-- A piece of layout uses up some of the text. -/
theorem Notation.advances_tryPiece : Advances tryPiece := by
  intro cs piece rest h
  rcases tryPiece_cases cs with ⟨piece', rest', h', used, same, -⟩ | ⟨reached, h', -⟩
  · cases h.symm.trans h'
    subst same
    refine ⟨List.suffix_append piece rest, ?_⟩
    rw [List.length_append]
    exact Nat.lt_add_of_pos_left (List.length_pos_iff.2 used)
  · cases h.symm.trans h'

/-- Pieces of layout are taken until all of the layout is passed over. -/
theorem Notation.exists_pieces (cs : List Char) :
    ∃ pieces, Repetition tryPiece cs (.ended pieces (skipLayout cs)) ∧ pieces.flatten ++ skipLayout cs = cs := by
  induction hn : cs.length using Nat.strong_induction_on generalizing cs with
  | h n ih =>
    subst hn
    rcases tryPiece_cases cs with ⟨piece, rest, h, -, same, passed⟩ | ⟨reached, h, firm⟩
    · have shorter := (advances_tryPiece cs piece rest h).2
      obtain ⟨pieces, run, whole⟩ := ih rest.length shorter rest rfl
      rw [passed]
      refine ⟨piece :: pieces, .again h (Nat.ne_of_lt shorter) run, ?_⟩
      rw [List.flatten_cons, List.append_assoc, whole, same]
    · rw [firm]
      exact ⟨[], .ended h, rfl⟩

/-- No layout goes further than what is passed over. -/
theorem Notation.skipLayout_suffix_of_layout {cs rest : List Char} (h : Layout cs rest) : skipLayout cs <:+ rest :=
  skipLayout_of_layout h ▸ skipLayout_suffix rest

/-- A `#` is no comment if its line breaks off with a carriage return alone. -/
theorem Notation.skipLayout_loneReturn {body more : List Char} (noReturn : '\r' ∉ body) (noFeed : '\n' ∉ body)
    (alone : more.head? ≠ some '\n') : skipLayout ('#' :: (body ++ '\r' :: more)) = '#' :: (body ++ '\r' :: more) := by
  have inside : (body ++ '\r' :: more).dropWhile isCommentChar = '\r' :: more := by
    rw [List.dropWhile_append_of_pos (all_isCommentChar_iff.2 ⟨noReturn, noFeed⟩)]
    exact List.dropWhile_cons_of_neg (by decide)
  have goesOn : ¬atLineEnd ('\r' :: more) = true := by
    intro ended
    cases lineEnd_iff.2 ended
    exact alone rfl
  rw [skipLayout, if_neg (by decide), inside, if_neg fun comment => goesOn comment.2]

/-! ## Items behind connectives -/

/-- What follows the letters of a word, in any case. -/
def Notation.passWord : List Char → List Char → Option (List Char)
  | [], cs => some cs
  | w :: word, c :: cs => if c.toLower = w then passWord word cs else none
  | _ :: _, [] => none

/-- An attempt at a connective, with the layout in front of it and all the white space behind it. It comes as far as the
letters if they are others, and as far as their end if no white space is behind them. -/
def Notation.tryConnective (word cs : List Char) : Attempt Unit :=
  match passWord word (skipLayout cs) with
  | none => .missed (skipLayout cs)
  | some behind => if behind.takeWhile isGap = [] then .missed behind else .taken () (behind.dropWhile isGap)

/-- An attempt at a connective with an item behind it. Once the connective is there the item has to be. -/
def Notation.tryJoined (word : List Char) (r : Reader Failure α) (cs : List Char) : Attempt α :=
  match tryConnective word cs with
  | .missed reached => .missed reached
  | .refused failure => .refused failure
  | .taken _ here => match r.run here with
    | .ok (a, rest) => .taken a rest
    | .error failure => .refused failure

/-- A reader to which layout in front of a text makes no difference. -/
def Notation.PassesLayout (r : Reader Failure α) : Prop := ∀ cs, r.run (skipLayout cs) = r.run cs

theorem Notation.isSpace_of_isGap (c : Char) (h : isGap c = true) : isSpace c = true := by
  simp only [isGap, isSpace, Bool.or_eq_true] at h ⊢
  exact .inl h

/-- A connective is its letters and then white space. -/
theorem Notation.stripWord_eq_bind (word cs : List Char) :
    stripWord word cs = (passWord word cs).bind (stripWord []) := by
  fun_induction passWord word cs with
  | case1 cs => rfl
  | case2 c word cs ih => rw [stripWord, if_pos rfl, ih]
  | case3 w word c cs hne => rw [stripWord, if_neg hne]; rfl
  | case4 w word => rfl

/-- A connective is complete only if a gap is behind it, and the gap is left where it is. -/
theorem Notation.stripWord_nil (cs : List Char) :
    stripWord [] cs = if cs.takeWhile isGap = [] then none else some cs := by
  cases cs with
  | nil => rfl
  | cons c cs => by_cases hc : isGap c = true <;> simp [stripWord, hc]

/-- What an attempt at a connective comes to: it is taken where one stands. -/
theorem Notation.tryConnective_cases (word cs : List Char) :
    (∃ here, (connective word).skip? cs = some here ∧ tryConnective word cs = .taken () (here.dropWhile isGap)) ∨
      ∃ reached, (connective word).skip? cs = none ∧ tryConnective word cs = .missed reached := by
  have strip : (connective word).skip? cs = (passWord word (skipLayout cs)).bind (stripWord []) := stripWord_eq_bind _ _
  cases letters : passWord word (skipLayout cs) with
  | none => exact .inr ⟨_, by rw [strip, letters]; rfl, by rw [tryConnective, letters]⟩
  | some behind =>
    rw [letters, Option.bind_some, stripWord_nil] at strip
    by_cases gap : behind.takeWhile isGap = []
    · rw [if_pos gap] at strip
      exact .inr ⟨behind, strip, by simp only [tryConnective, letters, if_pos gap]⟩
    · rw [if_neg gap] at strip
      exact .inl ⟨behind, strip, by simp only [tryConnective, letters, if_neg gap]⟩

/-- A connective that is not passed over is missed. -/
theorem Notation.tryConnective_of_none {word cs : List Char} (h : (connective word).skip? cs = none) :
    ∃ reached, tryConnective word cs = .missed reached := by
  rcases tryConnective_cases word cs with ⟨here, hs, -⟩ | ⟨reached, -, missed⟩
  · cases h.symm.trans hs
  · exact ⟨reached, missed⟩

/-- Where no connective is taken nothing is, and the repetition goes back in front of the layout. -/
theorem Notation.repetition_of_missed {word cs reached : List Char} (r : Reader Failure α)
    (h : tryConnective word cs = .missed reached) : Repetition (tryJoined word r) cs (.ended [] cs) := by
  have missed : tryJoined word r cs = .missed reached := by rw [tryJoined, h]
  exact .ended missed

/-- Behind a connective it makes no difference that the white space is passed over before the item is read. -/
theorem Notation.tryJoined_of_some {word cs here : List Char} {r : Reader Failure α} (passes : PassesLayout r)
    (h : (connective word).skip? cs = some here) :
    tryJoined word r cs = match r.run here with
      | .ok (a, rest) => .taken a rest
      | .error failure => .refused failure := by
  rcases tryConnective_cases word cs with ⟨here', hs, taken⟩ | ⟨reached, hs, -⟩
  · cases h.symm.trans hs
    have same : r.run (here.dropWhile isGap) = r.run here := by
      rw [← passes, skipLayout_dropWhile isSpace_of_isGap, passes]
    rw [tryJoined, taken]
    simp only [same]
  · cases h.symm.trans hs

/-- A connective that is passed over stands in front of what is left. -/
theorem Notation.suffix_of_skip? {word cs here : List Char} (h : (connective word).skip? cs = some here) : here <:+ cs := by
  have joined : Connective word (skipLayout cs) here := stripWord_eq_some_iff.1 h
  refine List.IsSuffix.trans ?_ (skipLayout_suffix cs)
  generalize skipLayout cs = start at joined
  obtain ⟨-, -⟩ := joined
  exact List.suffix_append _ _

/-- A connective with an item behind it leaves a shorter end of the text, because the item does. -/
theorem Notation.advances_tryJoined {word : List Char} {r : Reader Failure α} (passes : PassesLayout r)
    (closes : ∀ cs a rest, r.run cs = .ok (a, rest) → '"' :: rest <:+ cs) : Advances (tryJoined word r) := by
  intro cs a rest h
  cases hs : (connective word).skip? cs with
  | none =>
    obtain ⟨reached, missed⟩ := tryConnective_of_none hs
    rw [tryJoined, missed] at h
    cases h
  | some here =>
    rw [tryJoined_of_some passes hs] at h
    cases hr : r.run here with
    | error failure => simp only [hr, reduceCtorEq] at h
    | ok read =>
      simp only [hr, Attempt.taken.injEq] at h
      obtain ⟨rfl, rfl⟩ := h
      have behind := (List.suffix_cons '"' _).trans (closes here _ _ hr)
      refine ⟨behind.trans (suffix_of_skip? hs), ?_⟩
      exact Nat.lt_of_lt_of_le (r.shortens hr) ((connective word).length_le hs)

/-- The outcome of the repetition is what is read as many items. -/
theorem Notation.repetition_tryJoined {word : List Char} {r : Reader Failure α} (passes : PassesLayout r) (cs : List Char) :
    Repetition (tryJoined word r) cs (.ofRead (r.many (connective word) cs)) := by
  -- along the cases of `many`: the connective is missing, the item behind it is refused, or it is read
  fun_induction r.many (connective word) cs with
  | case1 cs hs =>
    obtain ⟨reached, missed⟩ := tryConnective_of_none hs
    exact repetition_of_missed r missed
  | case2 cs here hs failure hr =>
    refine .refused ?_
    rw [tryJoined_of_some passes hs, hr]
  | case3 cs here hs a rest hr ih =>
    have taken : tryJoined word r cs = .taken a rest := by rw [tryJoined_of_some passes hs, hr]
    have shorter := Nat.lt_of_lt_of_le (r.shortens hr) ((connective word).length_le hs)
    rw [Outcome.ofRead_mapValue]
    exact .again taken (Nat.ne_of_lt shorter) ih

/-! ## The end of a term, of a group and of all groups -/

/-- A row of tokens that starts with a field and leaves a rule complete ends with a closing quote. -/
theorem Notation.Row.closingQuote {cs rest : List Char} {tokens : List Token} (h : Row cs tokens rest)
    (order : InOrder (some .field) tokens none) : '"' :: rest <:+ cs := by
  rcases List.eq_nil_or_concat tokens with rfl | ⟨front, token, rfl⟩
  · cases order
  · -- nothing is expected behind the last token, nor is a term, so it is a value
    rw [List.concat_eq_append] at h order
    obtain ⟨mid, row, more⟩ := append_iff.1 h
    obtain ⟨kind, -, orderLast⟩ := InOrder.append_iff.1 order
    obtain ⟨after, last, behind⟩ := cons_iff.1 more
    obtain rfl := nil_iff.1 behind
    cases token with
    | field _ | operator _ | link _ => cases orderLast.2
    | value text =>
      obtain ⟨used, same⟩ := row.exists_eq_append
      rw [same]
      refine List.IsSuffix.trans ?_ ((Notation.skipLayout_suffix mid).trans (List.suffix_append used mid))
      generalize Notation.skipLayout mid = start at last
      obtain ⟨items⟩ := last
      exact (List.suffix_append _ _).trans (List.suffix_cons _ _)

/-- Layout in front of a term makes no difference. -/
theorem Notation.passesLayout_term : PassesLayout term := by
  intro cs
  show readTerm (skipLayout cs) = readTerm cs
  rw [readTerm, readTerm, skipLayout_idem]

/-- Layout in front of a group makes no difference. -/
theorem Notation.passesLayout_group : PassesLayout group := by
  intro cs
  simp only [group, Reader.sepBy, passesLayout_term cs]

/-- The three repetitions of the notation, pieces of layout, terms behind `and` and groups behind `or`, on every text, in four
parts.
1. Whatever one attempt takes leaves a shorter end of the text, and so each repetition has exactly one outcome and never stalls.
2. The outcome is what is read as many terms and as many groups.
3. Where an attempt at a connective misses, the repetition goes back to where the attempt began, in front of the layout, however
   far the attempt came. So what is left behind a group, and behind all groups, starts directly behind a closing quote.
4. Layout is passed over on every text, and nothing of it is left to be passed over. What is passed over is layout, and no layout
   goes further. A `#` whose line breaks off with a carriage return alone stays. -/
theorem Notation.repetitions_end (cs : List Char) :
    (Ends tryPiece ∧ Ends (tryJoined Link.and.word term) ∧ Ends (tryJoined Link.or.word group)) ∧
    (Repetition (tryJoined Link.and.word term) cs (.ofRead (term.many Notation.and cs)) ∧
      Repetition (tryJoined Link.or.word group) cs (.ofRead (group.many Notation.or cs))) ∧
    ((∀ reached, tryConnective Link.and.word cs = .missed reached →
        Repetition (tryJoined Link.and.word term) cs (.ended [] cs)) ∧
      (∀ reached, tryConnective Link.or.word cs = .missed reached →
        Repetition (tryJoined Link.or.word group) cs (.ended [] cs)) ∧
      (∀ terms rest, group.run cs = .ok (terms, rest) →
        '"' :: rest <:+ cs ∧ ∃ reached, tryConnective Link.and.word rest = .missed reached) ∧
      ∀ draft rest, groups.run cs = .ok (draft, rest) →
        '"' :: rest <:+ cs ∧ ∃ reached, tryConnective Link.or.word rest = .missed reached) ∧
    (∃ pieces, Repetition tryPiece cs (.ended pieces (skipLayout cs)) ∧ pieces.flatten ++ skipLayout cs = cs) ∧
    skipLayout (skipLayout cs) = skipLayout cs ∧
    Layout cs (skipLayout cs) ∧ (∀ rest, Layout cs rest → skipLayout cs <:+ rest) ∧
    ∀ body more, '\r' ∉ body → '\n' ∉ body → more.head? ≠ some '\n' → Layout cs ('#' :: (body ++ '\r' :: more)) →
      skipLayout cs = '#' :: (body ++ '\r' :: more) := by
  have termCloses : ∀ cs t rest, term.run cs = .ok (t, rest) → '"' :: rest <:+ cs := by
    intro cs t rest h
    exact (row_of_term h).1.closingQuote (row_of_term h).2
  have groupCloses : ∀ cs terms rest, group.run cs = .ok (terms, rest) → '"' :: rest <:+ cs := by
    intro cs terms rest h
    exact (row_of_group h).1.closingQuote (row_of_group h).2
  have terms : Advances (tryJoined Link.and.word term) := advances_tryJoined passesLayout_term termCloses
  have groups : Advances (tryJoined Link.or.word group) := advances_tryJoined passesLayout_group groupCloses
  refine ⟨⟨advances_tryPiece.ends, terms.ends, groups.ends⟩, ⟨?_, ?_⟩, ⟨?_, ?_, ?_, ?_⟩, exists_pieces cs,
    skipLayout_idem cs, layout_skipLayout cs, fun rest => skipLayout_suffix_of_layout, ?_⟩
  · exact repetition_tryJoined passesLayout_term cs
  · exact repetition_tryJoined passesLayout_group cs
  · exact fun _ missed => repetition_of_missed term missed
  · exact fun _ missed => repetition_of_missed group missed
  · intro terms rest h
    exact ⟨groupCloses cs terms rest h, tryConnective_of_none (run_group_eq_ok_iff.1 h).2⟩
  · intro draft rest h
    obtain ⟨row, order, -⟩ := row_of_groups h
    exact ⟨row.closingQuote order, tryConnective_of_none (run_groups_eq_ok_iff.1 h).2.2⟩
  · intro body more noReturn noFeed alone layout
    rw [skipLayout_of_layout layout, skipLayout_loneReturn noReturn noFeed alone]

/-- An attempt at `and` comes as far as the comment directly behind the letters, and the repetition goes back in front of the
layout; a group is read up to its last closing quote; and a comment that breaks off is not passed over. -/
theorem Notation.repetitions_end_going_back :
    let joint := "  and# c\n b in \"1\"".toList
    let pair := "a in \"1\" and b in \"2\" \t orx".toList
    let layout := [' ', '\t', '#', 'c', '\r', '\n', '#', 'x', '\r', 'y']
    tryConnective Link.and.word joint = .missed "# c\n b in \"1\"".toList ∧
      Repetition (tryJoined Link.and.word term) joint (.ended [] joint) ∧
      group.run pair = .ok ([⟨"a", "in", "1"⟩, ⟨"b", "in", "2"⟩], " \t orx".toList) ∧
      '"' :: " \t orx".toList <:+ pair ∧
      Layout layout ['#', 'x', '\r', 'y'] ∧ skipLayout layout = ['#', 'x', '\r', 'y'] := by
  intro joint pair layout
  have missed : tryConnective Link.and.word joint = .missed "# c\n b in \"1\"".toList := by decide +kernel
  have read : group.run pair = .ok ([⟨"a", "in", "1"⟩, ⟨"b", "in", "2"⟩], " \t orx".toList) := by decide +kernel
  have comment : LayoutPiece ['#', 'c', '\r', '\n', '#', 'x', '\r', 'y'] ['\r', '\n', '#', 'x', '\r', 'y'] :=
    @LayoutPiece.comment ['c'] _ (by decide) (by decide) (.returnAndFeed _)
  have passed : Layout layout ['#', 'x', '\r', 'y'] :=
    .head (.space (by decide)) (.head (.space (by decide)) (.head comment (.head (.space (by decide))
      (.head (.space (by decide)) .refl))))
  obtain ⟨-, -, ⟨goesBack, -, -, -⟩, -⟩ := repetitions_end joint
  obtain ⟨-, -, ⟨-, -, closes, -⟩, -⟩ := repetitions_end pair
  obtain ⟨-, -, -, -, -, -, -, stays⟩ := repetitions_end layout
  exact ⟨missed, goesBack _ missed, read, (closes _ _ read).1, passed,
    stays ['x'] ['y'] (by decide) (by decide) (by decide) passed⟩

end GateRules
