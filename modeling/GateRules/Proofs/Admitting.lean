import GateRules.Admission
import GateRules.Proofs.Building
import GateRules.Proofs.Drafts

/-!
# What a request comes to

A request is looked through three times: the draft for what is at fault in it, the stream of instructions for OR conditions
that dangle, and the finished groups for what is outside the vocabulary. The second of these never finds anything
(`Builder.exists_follow_instructions`), because groups that came through the first are not empty. What is left is an order
of reasons, `Request.Outcome`, and a request comes to exactly what that says.
-/

namespace GateRules

/-! ## Bodies and their groups -/

/-- The draft of a body has the term of each expression, group by group. -/
theorem Body.draft_eq (body : Body) : body.draft = body.groups.map (List.map Expression.term) := by
  simp [draft, groups]

/-- Groups that are not empty, if there are any, are the groups of a body. -/
theorem Body.exists_groups {groups : List (List Expression)} (h : groups ≠ []) (full : ∀ group ∈ groups, group ≠ []) :
    ∃ body : Body, body.groups = groups := by
  refine ⟨⟨groups.pmap Clause.mk full, by simpa using h⟩, ?_⟩
  simp [Body.groups, List.map_pmap]

/-- The expressions of a draft of at least one group are those of the body that it is the draft of. -/
theorem Draft.expressions_eq_ok_iff_exists_body {draft : Draft} (asked : draft ≠ []) {groups : List (List Expression)} :
    draft.expressions = .ok groups ↔ ∃ body : Body, body.groups = groups ∧ body.draft = draft := by
  rw [expressions_eq_ok_iff]
  constructor
  · rintro ⟨rfl, full⟩
    obtain ⟨body, rfl⟩ := Body.exists_groups (by simpa using asked) full
    exact ⟨body, rfl, body.draft_eq⟩
  · rintro ⟨body, rfl, rfl⟩
    exact ⟨body.draft_eq.symm, fun group hg hn => body.nil_notMem_groups (hn ▸ hg)⟩

/-! ## Building from the groups of a body -/

/-- A new builder comes to the end of the instructions for a body: no OR condition of them dangles. -/
theorem Builder.exists_follow_instructions {b : Builder} (opened : b.opened = []) (closed : b.closed = [])
    (body : Body) : ∃ b', b.follow (instructions body.groups) = .ok b' := by
  cases h : b.follow (instructions body.groups) with
  | ok b' => exact ⟨b', rfl⟩
  | error defect =>
    obtain ⟨k, -, here, -⟩ := follow_eq_error_iff.1 h
    rw [pending_of_fresh opened closed, segments_instructions body.groups_ne_nil] at here
    exact absurd (List.mem_of_getElem? here) body.nil_notMem_groups

/-- The instructions for a body never end in an OR condition. -/
theorem Body.getLast?_groups_ne_some_nil (body : Body) : body.groups.getLast? ≠ some [] :=
  fun h => body.nil_notMem_groups (List.mem_of_getLast? h)

/-- A new builder that has followed the instructions for a body finishes that body, unless there is an objection. -/
theorem Builder.exists_finish_instructions (flow : Flow) (tenant : String) (v : Vocabulary) (body : Body) :
    ∃ b', follow ⟨flow, tenant, v, [], []⟩ (instructions body.groups) = .ok b' ∧
      b'.finish = match v.firstObjection? flow body.groups with
        | some defect => .error defect
        | none => .ok body := by
  obtain ⟨b', followed⟩ := exists_follow_instructions (b := ⟨flow, tenant, v, [], []⟩) rfl rfl body
  have segments := segments_instructions body.groups_ne_nil
  have ending := fun r => @finish_eq_iff_ending _ _ _ r rfl rfl followed
  refine ⟨b', followed, ?_⟩
  cases hd : v.firstObjection? flow body.groups with
  | some defect =>
    obtain ⟨group, index, e, source, first, why, rfl⟩ := Vocabulary.firstObjection?_eq_some_iff.1 hd
    rw [← segments] at first
    exact (ending _).2 (.refused (segments.symm ▸ body.getLast?_groups_ne_some_nil) first why)
  | none =>
    have permitted := Vocabulary.firstObjection?_eq_none_iff.1 hd
    rw [← segments] at permitted
    exact (ending _).2 (.built (segments.symm ▸ body.getLast?_groups_ne_some_nil) permitted segments.symm)

/-- Without a vocabulary, no rule is built from the groups of a body, and the reason is told. -/
theorem Rule.ofExpressions_of_unserved {serve : Lookup} {flow : Flow} {tenant : String} {fault : RegistryFault}
    (unserved : serve flow tenant = .error fault) (groups : List (List Expression)) :
    ofExpressions groups flow tenant serve =
      ⟨.error (.noVocabulary fault), [.builderFailed fault.message flow tenant]⟩ := by
  simp [ofExpressions, Builder.create, unserved]

/-- With a vocabulary, the rule that is built from the groups of a body has that body, and is told of, unless there is an
objection. -/
theorem Rule.ofExpressions_of_served {serve : Lookup} {flow : Flow} {tenant : String} {v : Vocabulary}
    (served : serve flow tenant = .ok v) (body : Body) : ofExpressions body.groups flow tenant serve =
      match v.firstObjection? flow body.groups with
      | some defect => ⟨.error (.invalid defect), [.builderCreated flow tenant v.size]⟩
      | none => ⟨.ok (.conditional body flow tenant),
          [.builderCreated flow tenant v.size, .ruleBuilt flow tenant body.size body.expressionCount]⟩ := by
  obtain ⟨b', followed, finished⟩ := Builder.exists_finish_instructions flow tenant v body
  obtain ⟨sameFlow, sameTenant, -⟩ := Builder.scope_follow followed
  simp only [ofExpressions, Builder.create, served, followed, Builder.build, finished]
  cases v.firstObjection? flow body.groups with
  | some defect => rfl
  | none =>
    simp only [sameFlow, sameTenant]
    rfl

/-! ## What a request comes to -/

/-- What a request comes to and whose fault it is if there is no rule, with the reasons in the order in which they count:
nothing is asked for; the action has no flow; something is at fault in the draft; no vocabulary is served; an expression is
outside the vocabulary that is served. A draft without a fault is the draft of a body, and that is the body of the rule. -/
inductive Request.Outcome (request : Request) (action : Action) (tenant : String) (serve : Lookup) :
    Except Refusal Rule → Option Refusal.Kind → Prop
  | noRule (h : request.rules = none ∨ request.rules = some []) :
      Outcome request action tenant serve (.ok .unconditional) none
  | noFlow {draft : Draft} (rules : request.rules = some draft) (asked : draft ≠ []) (h : action.flow? = none) :
      Outcome request action tenant serve (.error (.notImplemented action.token)) (some .notImplemented)
  | fault {draft : Draft} {flow : Flow} {defect : Defect} (rules : request.rules = some draft) (asked : draft ≠ [])
      (hasFlow : action.flow? = some flow) (h : draft.Fault defect) :
      Outcome request action tenant serve (.error (.invalid defect)) (some .client)
  | noVocabulary {body : Body} {flow : Flow} {fault : RegistryFault} (rules : request.rules = some body.draft)
      (hasFlow : action.flow? = some flow) (h : serve flow tenant = .error fault) :
      Outcome request action tenant serve (.error (.noVocabulary fault)) (some .server)
  | outside {body : Body} {flow : Flow} {v : Vocabulary} {group index : Nat} {e : Expression} {source : Defect}
      (rules : request.rules = some body.draft) (hasFlow : action.flow? = some flow) (served : serve flow tenant = .ok v)
      (first : FirstAt v.Outside body.groups group index e) (why : v.Refuses flow e source) :
      Outcome request action tenant serve (.error (.invalid (.atExpression group index source))) (some .client)
  | admitted {body : Body} {flow : Flow} {v : Vocabulary} (rules : request.rules = some body.draft)
      (hasFlow : action.flow? = some flow) (served : serve flow tenant = .ok v)
      (permitted : ∀ group ∈ body.groups, ∀ e ∈ group, v.permits e.field e.operator = true) :
      Outcome request action tenant serve (.ok (.conditional body flow tenant)) none

theorem Body.draft_ne_nil (body : Body) : body.draft ≠ [] := by
  simpa [draft] using body.clauses_ne_nil

/-- A request asks for no rule if its rules are absent or empty. -/
theorem Request.draft?_eq_none_iff {request : Request} :
    request.draft? = none ↔ request.rules = none ∨ request.rules = some [] := by
  match request with
  | ⟨none⟩ => simp [draft?]
  | ⟨some []⟩ => simp [draft?]
  | ⟨some (terms :: more)⟩ => simp [draft?]

/-- What is asked for is the draft that the request has, if it has one of at least one group. -/
theorem Request.draft?_eq_some_iff {request : Request} {draft : Draft} :
    request.draft? = some draft ↔ request.rules = some draft ∧ draft ≠ [] := by
  match request with
  | ⟨none⟩ => simp [draft?]
  | ⟨some []⟩ =>
    constructor
    · intro h
      cases h
    · rintro ⟨h, asked⟩
      cases h
      exact absurd rfl asked
  | ⟨some (terms :: more)⟩ =>
    constructor
    · intro h
      cases h
      exact ⟨rfl, List.cons_ne_nil terms more⟩
    · rintro ⟨h, -⟩
      cases h
      rfl

theorem Action.flow_eq_of_some {action : Action} {flow : Flow} (h : action.flow? = some flow) : action.flow = .ok flow := by
  simp [Action.flow, h]

/-- An action without a flow is one for which rules are not implemented. -/
theorem Action.flow_eq_of_none {action : Action} (h : action.flow? = none) :
    action.flow = .error (.notImplemented action.token) := by
  simp [Action.flow, h]

/-- For an action with a flow, a draft that is the draft of a body comes to what is built from the groups of the body. -/
theorem Rule.ofDraft_of_body {action : Action} {flow : Flow} (hasFlow : action.flow? = some flow) (body : Body)
    (tenant : String) (serve : Lookup) :
    ofDraft body.draft action tenant serve = ofExpressions body.groups flow tenant serve := by
  have written := (Draft.expressions_eq_ok_iff_exists_body body.draft_ne_nil).2 ⟨body, rfl, rfl⟩
  simp only [ofDraft, Action.flow_eq_of_some hasFlow, written]

/-- A request with at least one group comes to what its draft comes to. -/
theorem Rule.ofRequest_of_rules {request : Request} {draft : Draft} (rules : request.rules = some draft)
    (asked : draft ≠ []) (action : Action) (tenant : String) (serve : Lookup) :
    ofRequest request action tenant serve = ofDraft draft action tenant serve := by
  simp only [ofRequest, Request.draft?_eq_some_iff.2 ⟨rules, asked⟩]

/-- What is said of the outcome of a request is what the request comes to. -/
theorem Request.Outcome.result_eq {request : Request} {action : Action} {tenant : String} {serve : Lookup}
    {result : Except Refusal Rule} {kind : Option Refusal.Kind} (h : Outcome request action tenant serve result kind) :
    (Rule.ofRequest request action tenant serve).result = result := by
  cases h with
  | noRule h => simp only [Rule.ofRequest, draft?_eq_none_iff.2 h]
  | noFlow rules asked h =>
    rw [Rule.ofRequest_of_rules rules asked, Rule.ofDraft, Action.flow_eq_of_none h]
    rfl
  | fault rules asked hasFlow h =>
    rw [Rule.ofRequest_of_rules rules asked, Rule.ofDraft, Action.flow_eq_of_some hasFlow]
    simp only [Draft.expressions_eq_error_iff.2 h]
    rfl
  | @noVocabulary body flow fault rules hasFlow h =>
    rw [Rule.ofRequest_of_rules rules body.draft_ne_nil, Rule.ofDraft_of_body hasFlow]
    rw [Rule.ofExpressions_of_unserved h]
  | @outside body flow v group index e source rules hasFlow served first why =>
    rw [Rule.ofRequest_of_rules rules body.draft_ne_nil, Rule.ofDraft_of_body hasFlow,
      Rule.ofExpressions_of_served served,
      Vocabulary.firstObjection?_eq_some_iff.2 ⟨group, index, e, source, first, why, rfl⟩]
  | @admitted body flow v rules hasFlow served permitted =>
    rw [Rule.ofRequest_of_rules rules body.draft_ne_nil, Rule.ofDraft_of_body hasFlow,
      Rule.ofExpressions_of_served served, Vocabulary.firstObjection?_eq_none_iff.2 permitted]

/-- Every request has an outcome. -/
theorem Request.exists_outcome (request : Request) (action : Action) (tenant : String) (serve : Lookup) :
    ∃ result kind, Outcome request action tenant serve result kind := by
  cases hd : request.draft? with
  | none => exact ⟨_, _, .noRule (draft?_eq_none_iff.1 hd)⟩
  | some draft =>
    obtain ⟨rules, asked⟩ := draft?_eq_some_iff.1 hd
    cases hf : action.flow? with
    | none => exact ⟨_, _, .noFlow rules asked hf⟩
    | some flow =>
      cases he : draft.expressions with
      | error defect => exact ⟨_, _, .fault rules asked hf (Draft.expressions_eq_error_iff.1 he)⟩
      | ok groups =>
        obtain ⟨body, rfl, rfl⟩ := (Draft.expressions_eq_ok_iff_exists_body asked).1 he
        cases hs : serve flow tenant with
        | error fault => exact ⟨_, _, .noVocabulary rules hf hs⟩
        | ok v =>
          cases ho : v.firstObjection? flow body.groups with
          | none => exact ⟨_, _, .admitted rules hf hs (Vocabulary.firstObjection?_eq_none_iff.1 ho)⟩
          | some defect =>
            obtain ⟨group, index, e, source, first, why, rfl⟩ := Vocabulary.firstObjection?_eq_some_iff.1 ho
            exact ⟨_, _, .outside rules hf hs first why⟩

/-- The kind that is told with an outcome is the kind of its refusal. -/
theorem Request.Outcome.kind_eq {request : Request} {action : Action} {tenant : String} {serve : Lookup}
    {result : Except Refusal Rule} {kind : Option Refusal.Kind} (h : Outcome request action tenant serve result kind) :
    kind = (fault? result).map Refusal.kind := by
  cases h <;> rfl

/-- A request comes to its outcome and to nothing else, for every action, every tenant and whatever is served. -/
theorem Rule.ofRequest_outcome (request : Request) (action : Action) (tenant : String) (serve : Lookup)
    (result : Except Refusal Rule) (kind : Option Refusal.Kind) :
    request.Outcome action tenant serve result kind ↔
      (ofRequest request action tenant serve).result = result ∧ kind = (fault? result).map Refusal.kind := by
  constructor
  · intro h
    exact ⟨h.result_eq, h.kind_eq⟩
  · rintro ⟨rfl, rfl⟩
    obtain ⟨result, kind, h⟩ := request.exists_outcome action tenant serve
    rw [h.result_eq, ← h.kind_eq]
    exact h

end GateRules
