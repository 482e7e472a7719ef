import GateRules.Proofs.Places

/-!
# What is at fault in a draft

A draft holds terms, and terms are text: a rule can be made of it only if no group is empty and every term is an
expression. `Draft.Fault` says what is at fault otherwise, and where.
-/

namespace GateRules

/-! ## Terms and expressions -/

/-- A term that is no expression. -/
def Term.Rejected (t : Term) : Prop := ∃ defect, Expression.ofTerm t = .error defect

/-- A term makes the expression that it is the term of, and no other. -/
theorem Expression.ofTerm_eq_ok_iff {t : Term} {e : Expression} : ofTerm t = .ok e ↔ e.term = t :=
  ⟨term_of_ofTerm, fun h => h ▸ ofTerm_term e⟩

/-- The terms that are not rejected are the terms of expressions. -/
theorem Term.not_rejected_iff {t : Term} : ¬t.Rejected ↔ ∃ e : Expression, e.term = t := by
  simp only [Rejected, ← Expression.ofTerm_eq_ok_iff]
  cases Expression.ofTerm t <;> simp

/-! ## Groups -/

/-- Terms are the expressions that they are written from. -/
theorem Draft.mapM_terms_eq_ok_iff {group : Nat} {terms : List Term} {expressions : List Expression} :
    (terms.zipIdx.mapM fun (t, index) => (Expression.ofTerm t).mapError (Defect.atExpression group index)) =
      .ok expressions ↔ expressions.map Expression.term = terms := by
  have each : ∀ t index e, (Expression.ofTerm t).mapError (Defect.atExpression group index) = .ok e ↔
      e.term = t ∧ True := by
    intro t index e
    rw [mapError_eq_ok_iff, Expression.ofTerm_eq_ok_iff, and_true]
  rw [mapM_zipIdx_eq_ok_iff each]
  simp

/-- The expressions of a group are those that its terms are written from, if there are any. -/
theorem Draft.groupExpressions_eq_ok_iff {group : Nat} {terms : List Term} {expressions : List Expression} :
    groupExpressions group terms = .ok expressions ↔ expressions.map Expression.term = terms ∧ expressions ≠ [] := by
  simp only [groupExpressions, bind_eq_ok_iff, mapM_terms_eq_ok_iff]
  constructor
  · rintro ⟨es, hes, h⟩
    split at h
    · cases h
    · rename_i hne
      cases h
      exact ⟨hes, fun hn => hne (hn ▸ rfl)⟩
  · rintro ⟨hes, hne⟩
    exact ⟨expressions, hes, by rw [if_neg (by simpa using hne)]; rfl⟩

/-- A group makes expressions exactly if it is not empty and none of its terms is rejected. -/
theorem Draft.exists_groupExpressions_iff {group : Nat} {terms : List Term} :
    (∃ expressions, groupExpressions group terms = .ok expressions) ↔ terms ≠ [] ∧ ∀ t ∈ terms, ¬t.Rejected := by
  simp only [groupExpressions_eq_ok_iff, Term.not_rejected_iff]
  constructor
  · rintro ⟨expressions, rfl, hne⟩
    refine ⟨by simpa using hne, ?_⟩
    intro t ht
    obtain ⟨e, -, he⟩ := List.mem_map.1 ht
    exact ⟨e, he⟩
  · rintro ⟨hne, h⟩
    induction terms with
    | nil => exact absurd rfl hne
    | cons t terms ih =>
      obtain ⟨e, he⟩ := h t List.mem_cons_self
      cases terms with
      | nil => exact ⟨[e], by simp [he], by simp⟩
      | cons u terms =>
        obtain ⟨es, hes, -⟩ := ih (by simp) fun x hx => h x (List.mem_cons_of_mem t hx)
        exact ⟨e :: es, by rw [List.map_cons, he, hes], by simp⟩

/-- A group is refused for its first term that is no expression, or for being empty. -/
theorem Draft.groupExpressions_eq_error_iff {group : Nat} {terms : List Term} {defect : Defect} :
    groupExpressions group terms = .error defect ↔
      (∃ index t source, terms[index]? = some t ∧ Expression.ofTerm t = .error source ∧
        (∀ i < index, ∀ u, terms[i]? = some u → ¬u.Rejected) ∧ defect = .atExpression group index source) ∨
      (terms = [] ∧ defect = .inGroup group .emptyGroup) := by
  simp only [groupExpressions, bind_eq_error_iff, mapM_terms_eq_ok_iff, mapM_zipIdx_eq_error_iff, mapError_eq_error_iff,
    mapError_eq_ok_iff, Expression.ofTerm_eq_ok_iff, ← Term.not_rejected_iff]
  refine or_congr ?_ ?_
  · constructor
    · rintro ⟨index, t, ht, ⟨source, hs, rfl⟩, earlier⟩
      exact ⟨index, t, source, ht, hs, earlier, rfl⟩
    · rintro ⟨index, t, source, ht, hs, earlier, rfl⟩
      exact ⟨index, t, ht, ⟨source, hs, rfl⟩, earlier⟩
  · constructor
    · rintro ⟨expressions, rfl, h⟩
      split at h
      · rename_i hn
        cases h
        exact ⟨by simpa using hn, rfl⟩
      · cases h
    · rintro ⟨rfl, rfl⟩
      exact ⟨[], rfl, rfl⟩

/-! ## Whole drafts -/

/-- The expressions of a draft are those that it is written from, if no group is empty. -/
theorem Draft.expressions_eq_ok_iff {draft : Draft} {groups : List (List Expression)} :
    draft.expressions = .ok groups ↔ groups.map (List.map Expression.term) = draft ∧ ∀ group ∈ groups, group ≠ [] :=
  mapM_zipIdx_eq_ok_iff fun _ _ _ => groupExpressions_eq_ok_iff

/-- What is at fault in a draft: a group that is empty, or a term that is no expression. Whichever it is, every group before
it has terms, and all terms before it are expressions. -/
inductive Draft.Fault (draft : Draft) : Defect → Prop
  | emptyGroup {group : Nat} (here : draft[group]? = some [])
      (earlier : ∀ g < group, ∀ terms, draft[g]? = some terms → terms ≠ [] ∧ ∀ t ∈ terms, ¬t.Rejected) :
      Fault draft (.inGroup group .emptyGroup)
  | rejected {group index : Nat} {t : Term} {defect : Defect} (first : FirstAt Term.Rejected draft group index t)
      (earlier : ∀ g < group, draft[g]? ≠ some []) (why : Expression.ofTerm t = .error defect) :
      Fault draft (.atExpression group index defect)

/-- A draft is refused exactly for what is at fault in it. -/
theorem Draft.expressions_eq_error_iff {draft : Draft} {defect : Defect} :
    draft.expressions = .error defect ↔ draft.Fault defect := by
  simp only [expressions, mapM_zipIdx_eq_error_iff, exists_groupExpressions_iff, groupExpressions_eq_error_iff]
  constructor
  · rintro ⟨group, terms, here, ⟨index, t, source, ht, hs, earlierIndex, rfl⟩ | ⟨rfl, rfl⟩, earlier⟩
    · refine .rejected ⟨⟨terms, here, ht⟩, ⟨source, hs⟩, ?_, ?_⟩ (fun g hg hn => (earlier g hg _ hn).1 rfl) hs
      · rintro g hg i u ⟨terms', hterms', hu⟩
        exact (earlier g hg terms' hterms').2 u (List.mem_of_getElem? hu)
      · rintro i hi u ⟨terms', hterms', hu⟩
        obtain rfl := Option.some.inj (here.symm.trans hterms')
        exact earlierIndex i hi u hu
    · exact .emptyGroup here earlier
  · rintro (⟨here, earlier⟩ | ⟨⟨⟨terms, here, ht⟩, -, earlierGroup, earlierIndex⟩, earlier, hs⟩)
    · exact ⟨_, [], here, .inr ⟨rfl, rfl⟩, earlier⟩
    · refine ⟨_, terms, here, .inl ⟨_, _, _, ht, hs, fun i hi u hu => earlierIndex i hi u ⟨terms, here, hu⟩, rfl⟩, ?_⟩
      intro g hg terms' hterms'
      refine ⟨fun hn => earlier g hg (hn ▸ hterms'), ?_⟩
      intro u hu
      obtain ⟨i, hi⟩ := List.mem_iff_getElem?.1 hu
      exact earlierGroup g hg i u ⟨terms', hterms', hi⟩

end GateRules
