import GateRules.Proofs.Agreement
import GateRules.Proofs.Quoting
import GateRules.Proofs.Tokens

/-!
# What a text in notation is refused for

Of all that can be wrong with a rule, little is left for a text that was read: none of its groups is empty, and each of its
operators is an identifier and so not blank (`Notation.isIdentifier_of_read`). A rule that is refused then is refused for one of
its terms, and for one of five reasons (`Term.Blamed`); the defect tells the place of the term and has no other wrapper.
-/

namespace GateRules

/-! ## What is read -/

/-- The operator of a term is an identifier. -/
theorem Notation.DerivesTerm.isIdentifier_operator {cs rest : List Char} {t : Term} (h : DerivesTerm cs t rest) :
    isIdentifier t.operator.toList = true := by
  obtain ⟨-, -, -, operatorToken, -, -⟩ := h
  rw [String.toList_ofList]
  exact operatorToken.isIdentifier

/-- Every operator of a text that is read is an identifier. -/
theorem Notation.isIdentifier_of_read {text : String} {draft : Draft} (h : read text = .ok draft) :
    ∀ group ∈ draft, ∀ t ∈ group, isIdentifier t.operator.toList = true := by
  intro group hg t ht
  rcases read_eq_ok_iff.1 h with _ | ⟨chain, -⟩
  · exact absurd hg List.not_mem_nil
  · obtain ⟨_, _, terms⟩ := chain.exists_item group hg
    obtain ⟨_, _, derived⟩ := terms.exists_item t ht
    exact derived.isIdentifier_operator

/-- No group of a text that is read is empty. -/
theorem Notation.nil_notMem_of_read {text : String} {draft : Draft} (h : read text = .ok draft) : [] ∉ draft :=
  (read_eq_ok_iff_spells.1 h).1

/-- An identifier starts with no white space of any kind. -/
theorem Text.isSpace_of_identifierStart {c : Char} (h : Notation.IdentifierStart c) : isSpace c = false := by
  have bounds : 0x41 ≤ c.toNat ∧ c.toNat ≤ 0x7A := by
    rcases h with ⟨lower, upper⟩ | ⟨lower, upper⟩ | rfl
    · exact ⟨lower, Nat.le_trans upper (by decide)⟩
    · exact ⟨Nat.le_trans (by decide) lower, upper⟩
    · decide
  simp only [isSpace, Bool.or_eq_false_iff, Bool.and_eq_false_iff, decide_eq_false_iff_not, beq_eq_false_iff_ne]
  omega

/-- A name is not blank. -/
theorem Text.isBlank_of_isIdentifier {text : String} (h : Notation.isIdentifier text.toList = true) :
    isBlank text = false := by
  unfold isBlank
  cases hc : text.toList with
  | nil => rw [hc] at h; cases h
  | cons c more =>
    rw [hc, Notation.isIdentifier, Bool.and_eq_true] at h
    rw [List.all_cons, isSpace_of_identifierStart (Notation.identifierStart_iff.2 h.1), Bool.false_and]

/-! ## What a term is refused for -/

/-- A term that was read, and what the rule is refused for on its account: the field is blank; the operator is an identifier that
is no operator's token; the value is empty; the vocabulary that is served does not have the field; or it has the field without
the operator. -/
inductive Term.Blamed (t : Term) (action : Action) (tenant : String) (serve : Lookup) : Defect → Prop
  | blankField (blank : ∀ c ∈ t.field.toList, Text.isSpace c = true) : Blamed t action tenant serve (.missing .field)
  | unknownOperator (bare : Notation.isIdentifier t.operator.toList = true) (h : ∀ operator : Operator, operator.token ≠ t.operator) :
      Blamed t action tenant serve (.unknownOperator t.operator)
  | emptyValue (h : t.value = "") : Blamed t action tenant serve (.missing .value)
  | unknownField {flow : Flow} {v : Vocabulary} (hasFlow : action.flow? = some flow) (served : serve flow tenant = .ok v)
      (h : v.get? t.field = none) : Blamed t action tenant serve (.unknownField t.field flow)
  | unsupportedOperator {flow : Flow} {v : Vocabulary} {operator : Operator} {operators : List Operator}
      (hasFlow : action.flow? = some flow) (served : serve flow tenant = .ok v) (written : operator.token = t.operator)
      (known : v.get? t.field = some operators) (h : operator ∉ operators) :
      Blamed t action tenant serve (.unsupportedOperator t.field operator flow)

/-- A defect that no text in notation is refused for: that there is no expression where there must be one, in a group, in the
whole rule or behind an OR condition, that a group as a whole is at fault, or that an operator is blank. -/
def Defect.NeverRead : Defect → Prop
  | .emptyGroup | .emptyBody | .danglingOr _ | .inGroup .. | .missing .operator => True
  | _ => False

/-- What a term is blamed for has nothing under it. -/
theorem Term.Blamed.causes_eq {t : Term} {action : Action} {tenant : String} {serve : Lookup} {source : Defect}
    (h : t.Blamed action tenant serve source) : source.causes = [] := by
  cases h <;> rfl

/-- What a term is blamed for is never one of the defects that notation rules out. -/
theorem Term.Blamed.not_neverRead {t : Term} {action : Action} {tenant : String} {serve : Lookup} {source : Defect}
    (h : t.Blamed action tenant serve source) : ¬source.NeverRead := by
  cases h <;> exact id

/-- A term whose operator is an identifier is blamed for whatever keeps it from being an expression. -/
theorem Term.blamed_of_ofTerm {t : Term} (bare : Notation.isIdentifier t.operator.toList = true) {source : Defect}
    (h : Expression.ofTerm t = .error source) (action : Action) (tenant : String) (serve : Lookup) :
    t.Blamed action tenant serve source := by
  have operatorNotBlank := Text.isBlank_of_isIdentifier bare
  unfold Expression.ofTerm at h
  split at h
  · rename_i blank
    cases h
    exact .blankField (List.all_eq_true.1 blank)
  rename_i fieldNotBlank
  rw [if_neg (by simp [operatorNotBlank])] at h
  split at h
  · rename_i unknown
    cases h
    refine .unknownOperator bare ?_
    intro operator written
    rw [Operator.ofToken?_eq_some_iff.2 written] at unknown
    cases unknown
  · rw [Expression.make, dif_pos (by simpa using fieldNotBlank)] at h
    split at h
    · cases h
    · rename_i empty
      cases h
      exact .emptyValue (Classical.not_not.1 empty)

/-- A term is blamed for what a vocabulary has against the expression that the term is written as. -/
theorem Vocabulary.Refuses.blamed {v : Vocabulary} {flow : Flow} {e : Expression} {source : Defect}
    (why : v.Refuses flow e source) {action : Action} {tenant : String} {serve : Lookup} (hasFlow : action.flow? = some flow)
    (served : serve flow tenant = .ok v) : e.term.Blamed action tenant serve source := by
  cases why with
  | unknown unknown => exact .unknownField hasFlow served unknown
  | unsupported known unsupported => exact .unsupportedOperator hasFlow served rfl known unsupported

/-! ## Where the term stands -/

theorem StandsAt.map {α β : Type} {groups : List (List α)} {group index : Nat} {a : α} (h : StandsAt groups group index a)
    (f : α → β) : StandsAt (groups.map (List.map f)) group index (f a) := by
  obtain ⟨items, hg, hi⟩ := h
  exact ⟨items.map f, by rw [List.getElem?_map, hg]; rfl, by rw [List.getElem?_map, hi]; rfl⟩

/-- What stands at a place is what is found there, within the bounds of the groups and of the group. -/
theorem StandsAt.exists_lt {α : Type} {groups : List (List α)} {group index : Nat} {a : α}
    (h : StandsAt groups group index a) :
    ∃ (hg : group < groups.length) (hi : index < groups[group].length), groups[group][index] = a := by
  obtain ⟨items, here, there⟩ := h
  obtain ⟨hg, rfl⟩ := List.getElem?_eq_some_iff.1 here
  obtain ⟨hi, found⟩ := List.getElem?_eq_some_iff.1 there
  exact ⟨hg, hi, found⟩

/-! ## What a text is refused for -/

/-- A text that is read comes to the outcome of the request for its groups. -/
theorem Rule.exists_outcome_ofNotation {text : String} {draft : Draft} (h : Notation.read text = .ok draft) (action : Action)
    (tenant : String) (serve : Lookup) :
    ∃ kind, Request.Outcome ⟨some draft⟩ action tenant serve (ofNotation text action tenant serve).result kind := by
  obtain ⟨result, kind, outcome⟩ := Request.exists_outcome ⟨some draft⟩ action tenant serve
  have same : (ofNotation text action tenant serve).result = (ofRequest ⟨some draft⟩ action tenant serve).result := by
    by_cases asked : draft = []
    · subst asked
      rw [ofNotation_of_nil h]
      rfl
    · rw [ofNotation_of_groups h asked, ofRequest_of_rules rfl asked]
  rw [same, outcome.result_eq]
  exact ⟨kind, outcome⟩

/-- A text with an invalid rule was read, and one of its terms is blamed. -/
theorem Rule.exists_blamed_of_ofNotation {text : String} {action : Action} {tenant : String} {serve : Lookup}
    {defect : Defect} (h : (ofNotation text action tenant serve).result = .error (.invalid defect)) :
    ∃ draft group index t source, Notation.read text = .ok draft ∧ StandsAt draft group index t ∧
      defect = .atExpression group index source ∧ t.Blamed action tenant serve source := by
  cases read : Notation.read text with
  | error misread =>
    rw [ofNotation_of_misread read] at h
    cases h
  | ok draft =>
    obtain ⟨kind, outcome⟩ := exists_outcome_ofNotation read action tenant serve
    rw [h] at outcome
    cases outcome with
    | fault rules _ _ fault =>
      cases rules
      cases fault with
      | emptyGroup here _ => exact absurd (List.mem_of_getElem? here) (Notation.nil_notMem_of_read read)
      | rejected first _ why =>
        obtain ⟨terms, here, there⟩ := first.stands
        have bare := Notation.isIdentifier_of_read read terms (List.mem_of_getElem? here) _ (List.mem_of_getElem? there)
        exact ⟨draft, _, _, _, _, rfl, first.stands, rfl, Term.blamed_of_ofTerm bare why action tenant serve⟩
    | outside rules hasFlow served first why =>
      have stands := first.stands.map Expression.term
      rw [← Body.draft_eq] at stands
      exact ⟨_, _, _, _, _, congrArg Except.ok (Option.some.inj rules), stands, rfl, why.blamed hasFlow served⟩

/-- A text in notation is never refused as JSON. -/
theorem Rule.ofNotation_ne_malformed (text : String) (action : Action) (tenant : String) (serve : Lookup)
    (fault : Json.Fault) : (ofNotation text action tenant serve).result ≠ .error (.malformed fault) := by
  intro h
  cases read : Notation.read text with
  | error misread =>
    rw [ofNotation_of_misread read] at h
    cases h
  | ok draft =>
    obtain ⟨kind, outcome⟩ := exists_outcome_ofNotation read action tenant serve
    rw [h] at outcome
    cases outcome

/-- What a text in notation is refused for, in four parts, for every text, action and tenant and whatever is served.
1. A text that is read has no empty group, and each of its operators is an identifier and not blank.
2. If the rule is invalid, then the text was read, and the defect has one wrapper, which tells the place of a term that was read
   there; under the wrapper is what that term is blamed for.
3. Neither that defect nor anything under it is one that no text is refused for.
4. No text is refused as JSON. -/
theorem Rule.ofNotation_defect (text : String) (action : Action) (tenant : String) (serve : Lookup) :
    (∀ draft, Notation.read text = .ok draft → ∀ group ∈ draft, group ≠ [] ∧
      ∀ t ∈ group, Notation.isIdentifier t.operator.toList = true ∧ Text.isBlank t.operator = false) ∧
    (∀ defect, (ofNotation text action tenant serve).result = .error (.invalid defect) →
      ∃ draft, Notation.read text = .ok draft ∧ ∃ (group index : Nat) (hg : group < draft.length)
        (hi : index < draft[group].length) (source : Defect), defect = .atExpression group index source ∧
          draft[group][index].Blamed action tenant serve source) ∧
    (∀ defect, (ofNotation text action tenant serve).result = .error (.invalid defect) →
      ∀ d ∈ defect :: defect.causes, ¬d.NeverRead) ∧
    (∀ fault, (ofNotation text action tenant serve).result ≠ .error (.malformed fault)) := by
  refine ⟨?_, ?_, ?_, ofNotation_ne_malformed text action tenant serve⟩
  · intro draft read group hg
    refine ⟨fun hn => Notation.nil_notMem_of_read read (hn ▸ hg), ?_⟩
    intro t ht
    have bare := Notation.isIdentifier_of_read read group hg t ht
    exact ⟨bare, Text.isBlank_of_isIdentifier bare⟩
  · intro defect h
    obtain ⟨draft, group, index, t, source, read, stands, rfl, blamed⟩ := exists_blamed_of_ofNotation h
    obtain ⟨hg, hi, rfl⟩ := stands.exists_lt
    exact ⟨draft, read, group, index, hg, hi, source, rfl, blamed⟩
  · intro defect h d hd
    obtain ⟨_, group, index, _, source, _, _, rfl, blamed⟩ := exists_blamed_of_ofNotation h
    simp only [Defect.causes, blamed.causes_eq, List.mem_cons, List.not_mem_nil, or_false] at hd
    rcases hd with rfl | rfl
    · exact id
    · exact blamed.not_neverRead

/-- A field of one blank comes after a good term in the second group, and it is what the rule is refused for. -/
theorem Rule.ofNotation_defect_blank_field :
    let text := "grantType equals \"password\" or ip in \"::1\" and \" \" in \"\""
    let draft : Draft := [[⟨"grantType", "equals", "password"⟩], [⟨"ip", "in", "::1"⟩, ⟨" ", "in", ""⟩]]
    Notation.read text = .ok draft ∧
      (ofNotation text .preIssueAccessToken "carbon.super" Registry.builtIn.lookup).result =
        .error (.invalid (.atExpression 1 1 (.missing .field))) ∧
      ¬(Defect.missing .field).NeverRead ∧
      Text.isBlank "in" = false := by
  intro text draft
  have read : Notation.read text = .ok draft := by decide +kernel
  have refused : (ofNotation text .preIssueAccessToken "carbon.super" Registry.builtIn.lookup).result =
      .error (.invalid (.atExpression 1 1 (.missing .field))) := by
    rw [ofNotation_of_groups read (List.cons_ne_nil _ _)]
    decide
  obtain ⟨operators, -, root, -⟩ :=
    ofNotation_defect text .preIssueAccessToken "carbon.super" Registry.builtIn.lookup
  obtain ⟨-, inSecond⟩ := operators draft read [⟨"ip", "in", "::1"⟩, ⟨" ", "in", ""⟩] (by simp [draft])
  exact ⟨read, refused, root _ refused _ (by simp [Defect.causes]), (inSecond ⟨" ", "in", ""⟩ (by simp)).2⟩

end GateRules
