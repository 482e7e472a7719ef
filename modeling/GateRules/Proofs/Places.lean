import GateRules.Builder

/-!
# The first fault of grouped items

What is wrong with a rule is told with a place: the number of a group and a number within it. `FirstAt` says what it means
that an item is the first bad one, without any order of looking. A walk that counts what it meets is shown to stop there,
and to come through exactly when there is no such place.
-/

namespace GateRules

/-- `a` is number `index` of group number `group`. -/
def StandsAt {α : Type} (groups : List (List α)) (group index : Nat) (a : α) : Prop :=
  ∃ items, groups[group]? = some items ∧ items[index]? = some a

/-- `a` is bad, and it is the first that is: nothing in an earlier group and nothing before it in its own is bad. -/
structure FirstAt {α : Type} (bad : α → Prop) (groups : List (List α)) (group index : Nat) (a : α) : Prop where
  stands : StandsAt groups group index a
  isBad : bad a
  earlierGroup : ∀ g < group, ∀ i b, StandsAt groups g i b → ¬bad b
  earlierIndex : ∀ i < index, ∀ b, StandsAt groups group i b → ¬bad b

/-- No two items stand at one place. -/
theorem StandsAt.unique {α : Type} {groups : List (List α)} {group index : Nat} {a b : α}
    (h : StandsAt groups group index a) (h' : StandsAt groups group index b) : a = b := by
  obtain ⟨items, hg, hi⟩ := h
  obtain ⟨items', hg', hi'⟩ := h'
  obtain rfl := Option.some.inj (hg.symm.trans hg')
  exact Option.some.inj (hi.symm.trans hi')

/-- If fewer items are bad, then the first bad one does not stand further to the left. -/
theorem FirstAt.le {α : Type} {bad fewer : α → Prop} {groups : List (List α)} {group index group' index' : Nat} {a b : α}
    (h : FirstAt bad groups group index a) (h' : FirstAt fewer groups group' index' b) (isBad : fewer b → bad b) :
    group < group' ∨ (group = group' ∧ index ≤ index') := by
  have hb : bad b := isBad h'.isBad
  have notGroup : ¬group' < group := fun lt => h.earlierGroup group' lt index' b h'.stands hb
  have notIndex : group = group' → ¬index' < index := by
    rintro rfl lt
    exact h.earlierIndex index' lt b h'.stands hb
  omega

/-! ## Walks with a count -/

/-- A search that counts the items stops at the first item it finds something at. -/
theorem findSome?_zipIdx_eq_some_iff {α β : Type} {f : α × Nat → Option β} {items : List α} {start : Nat} {b : β} :
    (items.zipIdx start).findSome? f = some b ↔ ∃ i a, items[i]? = some a ∧ f (a, start + i) = some b ∧
      ∀ j < i, ∀ c, items[j]? = some c → f (c, start + j) = none := by
  induction items generalizing start with
  | nil => simp
  | cons a items ih =>
    have shift : ∀ j, start + 1 + j = start + (j + 1) := fun j => by omega
    rw [List.zipIdx_cons, List.findSome?_cons]
    cases ha : f (a, start) with
    | some found =>
      constructor
      · intro h
        exact ⟨0, a, rfl, ha.trans h, fun j hj => absurd hj (Nat.not_lt_zero j)⟩
      · rintro ⟨i, c, hc, hf, first⟩
        cases i with
        | zero =>
          cases hc
          exact ha.symm.trans hf
        | succ i => exact nomatch ha.symm.trans (first 0 (Nat.succ_pos i) a rfl)
    | none =>
      simp only [ih, shift]
      constructor
      · rintro ⟨i, c, hc, hf, first⟩
        refine ⟨i + 1, c, hc, hf, ?_⟩
        intro j hj x hx
        cases j with
        | zero =>
          cases hx
          exact ha
        | succ j => exact first j (Nat.lt_of_succ_lt_succ hj) x hx
      · rintro ⟨i, c, hc, hf, first⟩
        cases i with
        | zero =>
          cases hc
          exact nomatch ha.symm.trans hf
        | succ i => exact ⟨i, c, hc, hf, fun j hj x hx => first (j + 1) (Nat.succ_lt_succ hj) x hx⟩

/-- A search that counts the items finds nothing exactly when there is nothing at any of them. -/
theorem findSome?_zipIdx_eq_none_iff {α β : Type} {f : α × Nat → Option β} {items : List α} :
    items.zipIdx.findSome? f = none ↔ ∀ i a, items[i]? = some a → f (a, i) = none := by
  simp only [List.findSome?_eq_none_iff, Prod.forall, List.mem_zipIdx_iff_getElem?]
  exact ⟨fun h i a ha => h a i ha, fun h a i ha => h i a ha⟩

/-- Two computations in a row succeed exactly if both do. -/
theorem bind_eq_ok_iff {ε α β : Type} {x : Except ε α} {f : α → Except ε β} {b : β} :
    (x >>= f) = .ok b ↔ ∃ a, x = .ok a ∧ f a = .ok b := by
  cases x <;> simp [bind, Except.bind]

/-- Two computations in a row fail with what the first fails with, or else the second. -/
theorem bind_eq_error_iff {ε α β : Type} {x : Except ε α} {f : α → Except ε β} {e : ε} :
    (x >>= f) = .error e ↔ x = .error e ∨ ∃ a, x = .ok a ∧ f a = .error e := by
  cases x <;> simp [bind, Except.bind]

theorem mapError_eq_ok_iff {ε ε' α : Type} {x : Except ε α} {f : ε → ε'} {a : α} :
    x.mapError f = .ok a ↔ x = .ok a := by
  cases x with
  | error d => exact ⟨(nomatch ·), (nomatch ·)⟩
  | ok b =>
    constructor
    · intro h
      cases h
      rfl
    · intro h
      cases h
      rfl

theorem mapError_eq_error_iff {ε ε' α : Type} {x : Except ε α} {f : ε → ε'} {e : ε'} :
    x.mapError f = .error e ↔ ∃ d, x = .error d ∧ f d = e := by
  cases x with
  | error d =>
    constructor
    · intro h
      cases h
      exact ⟨d, rfl, rfl⟩
    · rintro ⟨_, h, rfl⟩
      cases h
      rfl
  | ok b =>
    constructor
    · intro h
      cases h
    · rintro ⟨_, h, _⟩
      cases h

/-- The error of a result, if it is one. -/
def fault? {ε α : Type} : Except ε α → Option ε
  | .error e => some e
  | .ok _ => none

theorem fault?_eq_some_iff {ε α : Type} {x : Except ε α} {e : ε} : fault? x = some e ↔ x = .error e := by
  cases x <;> simp [fault?]

theorem fault?_eq_none_iff {ε α : Type} {x : Except ε α} : fault? x = none ↔ ∃ a, x = .ok a := by
  cases x <;> simp [fault?]

/-- A list is refused for the first of its items that is refused. -/
theorem mapM_eq_error_iff {ε α β : Type} {f : α → Except ε β} {items : List α} {e : ε} :
    items.mapM f = .error e ↔ items.findSome? (fun a => fault? (f a)) = some e := by
  induction items with
  | nil => simp [pure, Except.pure]
  | cons a items ih =>
    rw [List.mapM_cons, List.findSome?_cons]
    cases ha : f a with
    | error e' => simp [fault?, bind, Except.bind]
    | ok b =>
      rw [show fault? (.ok b : Except ε β) = none from rfl, ← ih]
      cases items.mapM f <;> simp [bind, Except.bind, pure, Except.pure]

/-- A list that is refused is refused at the first place where an item is. -/
theorem mapM_zipIdx_eq_error_iff {ε α β : Type} {f : α × Nat → Except ε β} {items : List α} {e : ε} :
    items.zipIdx.mapM f = .error e ↔ ∃ i a, items[i]? = some a ∧ f (a, i) = .error e ∧
      ∀ j < i, ∀ c, items[j]? = some c → ∃ b, f (c, j) = .ok b := by
  simp only [mapM_eq_error_iff, findSome?_zipIdx_eq_some_iff, fault?_eq_some_iff, fault?_eq_none_iff, Nat.zero_add]

/-- A list of results is accepted exactly for the list that it is a view of, when that is so of each result. -/
theorem mapM_zipIdx_eq_ok_iff {ε α β : Type} {f : α × Nat → Except ε β} {view : β → α} {good : β → Prop}
    (hf : ∀ a i b, f (a, i) = .ok b ↔ view b = a ∧ good b) {items : List α} {start : Nat} {bs : List β} :
    (items.zipIdx start).mapM f = .ok bs ↔ bs.map view = items ∧ ∀ b ∈ bs, good b := by
  induction items generalizing start bs with
  | nil => cases bs <;> simp [pure, Except.pure]
  | cons a items ih =>
    rw [List.zipIdx_cons, List.mapM_cons]
    simp only [bind_eq_ok_iff, hf, ih, pure, Except.pure, Except.ok.injEq]
    constructor
    · rintro ⟨b, ⟨hview, hgood⟩, more, ⟨hviews, hgoods⟩, rfl⟩
      exact ⟨by rw [List.map_cons, hview, hviews], List.forall_mem_cons.2 ⟨hgood, hgoods⟩⟩
    · rintro ⟨hviews, hgoods⟩
      cases bs with
      | nil => cases hviews
      | cons b more =>
        obtain ⟨hgood, hgoods⟩ := List.forall_mem_cons.1 hgoods
        obtain ⟨hview, hviews⟩ := List.cons.inj hviews
        exact ⟨b, ⟨hview, hgood⟩, more, ⟨hviews, hgoods⟩, rfl⟩

/-! ## The groups of a rule against a vocabulary -/

/-- What there is against an expression that a vocabulary does not allow in a flow. -/
inductive Vocabulary.Refuses (v : Vocabulary) (flow : Flow) (e : Expression) : Defect → Prop
  | unknown (h : v.get? e.field = none) : Refuses v flow e (.unknownField e.field flow)
  | unsupported {operators : List Operator} (known : v.get? e.field = some operators)
      (h : e.operator ∉ operators) : Refuses v flow e (.unsupportedOperator e.field e.operator flow)

/-- The objection of a vocabulary to an expression is what it refuses the expression for. -/
theorem Vocabulary.objection?_eq_some_iff {v : Vocabulary} {flow : Flow} {e : Expression} {defect : Defect} :
    v.objection? flow e = some defect ↔ v.Refuses flow e defect := by
  constructor
  · intro h
    unfold objection? at h
    split at h
    · rename_i hn
      cases h
      exact .unknown hn
    · rename_i operators hk
      split at h
      · cases h
      · rename_i ho
        cases h
        exact .unsupported hk ho
  · rintro (h | ⟨known, h⟩)
    · simp only [objection?, h]
    · simp only [objection?, known, if_neg h]

/-- Whether a vocabulary does not allow an expression. -/
def Vocabulary.Outside (v : Vocabulary) (e : Expression) : Prop := v.permits e.field e.operator = false

/-- A vocabulary has no objection to an expression that is not outside it. -/
theorem Vocabulary.objection?_eq_none_iff_not_outside {v : Vocabulary} {flow : Flow} {e : Expression} :
    v.objection? flow e = none ↔ ¬v.Outside e := by
  rw [objection?_eq_none_iff, Outside, Bool.not_eq_false]

/-- An expression that a vocabulary refuses is outside it. -/
theorem Vocabulary.Refuses.outside {v : Vocabulary} {flow : Flow} {e : Expression} {defect : Defect}
    (h : v.Refuses flow e defect) : v.Outside e := by
  refine Classical.byContradiction fun hn => ?_
  exact nomatch (objection?_eq_none_iff_not_outside.2 hn).symm.trans (objection?_eq_some_iff.2 h)

/-- The objection to groups of expressions is the one to the first that the vocabulary does not allow. -/
theorem Vocabulary.firstObjection?_eq_some_iff {v : Vocabulary} {flow : Flow} {groups : List (List Expression)}
    {defect : Defect} : v.firstObjection? flow groups = some defect ↔
      ∃ group index e source, FirstAt v.Outside groups group index e ∧ v.Refuses flow e source ∧
        defect = .atExpression group index source := by
  simp only [firstObjection?, findSome?_zipIdx_eq_some_iff, findSome?_zipIdx_eq_none_iff, Option.map_eq_some_iff,
    Option.map_eq_none_iff, objection?_eq_some_iff, objection?_eq_none_iff_not_outside, Nat.zero_add]
  constructor
  · rintro ⟨group, items, hg, ⟨index, e, hi, ⟨source, hs, rfl⟩, earlierIndex⟩, earlierGroup⟩
    refine ⟨group, index, e, source, ⟨⟨items, hg, hi⟩, hs.outside, ?_, ?_⟩, hs, rfl⟩
    · rintro g hlt i b ⟨items', hg', hi'⟩
      exact earlierGroup g hlt items' hg' i b hi'
    · rintro i hlt b ⟨items', hg', hi'⟩
      obtain rfl := Option.some.inj (hg.symm.trans hg')
      exact earlierIndex i hlt b hi'
  · rintro ⟨group, index, e, source, ⟨⟨items, hg, hi⟩, -, earlierGroup, earlierIndex⟩, hs, rfl⟩
    exact ⟨group, items, hg, ⟨index, e, hi, ⟨source, hs, rfl⟩,
      fun i hlt b hb => earlierIndex i hlt b ⟨items, hg, hb⟩⟩,
      fun g hlt items' hg' i b hb => earlierGroup g hlt i b ⟨items', hg', hb⟩⟩

/-- There is no objection to groups of expressions exactly when the vocabulary permits each of them. -/
theorem Vocabulary.firstObjection?_eq_none_iff {v : Vocabulary} {flow : Flow} {groups : List (List Expression)} :
    v.firstObjection? flow groups = none ↔ ∀ group ∈ groups, ∀ e ∈ group, v.permits e.field e.operator = true := by
  simp only [firstObjection?, findSome?_zipIdx_eq_none_iff, Option.map_eq_none_iff, objection?_eq_none_iff]
  constructor
  · intro h group hg e he
    obtain ⟨g, hg⟩ := List.mem_iff_getElem?.1 hg
    obtain ⟨i, hi⟩ := List.mem_iff_getElem?.1 he
    exact h g group hg i e hi
  · intro h g group hg i e hi
    exact h group (List.mem_of_getElem? hg) e (List.mem_of_getElem? hi)

end GateRules
