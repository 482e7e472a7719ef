import GateRules.Proofs.Admitting

/-!
# Answers that are asked for again

A rule is answered in the form in which rules are asked for. To ask and to answer undo each other: a rule that was admitted
is answered by the request it came from, and an answer, when it is asked for again, brings the rule back exactly when there
is still a vocabulary that permits it. Both directions are read off the outcome of the request (`Request.Outcome`).
-/

namespace GateRules

theorem Rule.request?_conditional (body : Body) (flow : Flow) (tenant : String) :
    (conditional body flow tenant).request? = some ⟨some body.draft⟩ := rfl

/-- The draft of a body has no empty group. -/
theorem Body.nil_notMem_draft (body : Body) : [] ∉ body.draft := by
  rw [draft_eq, List.mem_map]
  rintro ⟨group, hg, hn⟩
  exact body.nil_notMem_groups (List.map_eq_nil_iff.1 hn ▸ hg)

/-- A request comes to a conditional rule exactly when it asks for the draft of the body of the rule, for an action that has
the flow and for the tenant, and when a vocabulary is served that permits every expression. -/
theorem Rule.result_eq_conditional_iff {request : Request} {action : Action} {tenant : String} {serve : Lookup}
    {body : Body} {flow : Flow} {owner : String} :
    (ofRequest request action tenant serve).result = .ok (.conditional body flow owner) ↔
      request.rules = some body.draft ∧ action.flow? = some flow ∧ owner = tenant ∧
        ∃ v, serve flow tenant = .ok v ∧ ∀ group ∈ body.groups, ∀ e ∈ group, v.permits e.field e.operator = true := by
  constructor
  · intro h
    obtain ⟨result, kind, outcome⟩ := request.exists_outcome action tenant serve
    rw [outcome.result_eq] at h
    subst h
    cases outcome with
    | admitted rules hasFlow served permitted => exact ⟨rules, hasFlow, rfl, _, served, permitted⟩
  · rintro ⟨rules, hasFlow, rfl, v, served, permitted⟩
    exact (Request.Outcome.admitted rules hasFlow served permitted).result_eq

/-- Only the unconditional rule has no answer. -/
theorem Rule.request?_eq_none_iff {rule : Rule} : rule.request? = none ↔ rule = .unconditional := by
  cases rule with
  | unconditional => exact ⟨fun _ => rfl, fun _ => rfl⟩
  | conditional body flow tenant => exact ⟨(nomatch ·), (nomatch ·)⟩

/-- To ask and to answer undo each other, in three parts.
1. Whatever a conditional rule was admitted for, it is answered by the very request that it was admitted from.
2. A conditional rule is answered by a request that comes to the rule again, for its tenant, exactly when a vocabulary is
   served for its flow and tenant that permits every expression of the rule.
3. Only the unconditional rule has no answer, and an answer has at least one group and no group without terms. -/
theorem Rule.request_inverse :
    (∀ (request : Request) (action : Action) (tenant : String) (serve : Lookup) (body : Body) (flow : Flow)
      (owner : String), (ofRequest request action tenant serve).result = .ok (.conditional body flow owner) →
        (conditional body flow owner).request? = some request) ∧
    (∀ (body : Body) (flow : Flow) (tenant : String) (serve : Lookup), ∃ request,
      (conditional body flow tenant).request? = some request ∧
      ((ofRequest request .preIssueAccessToken tenant serve).result = .ok (.conditional body flow tenant) ↔
        ∃ v, serve flow tenant = .ok v ∧ ∀ group ∈ body.groups, ∀ e ∈ group, v.permits e.field e.operator = true)) ∧
    ((∀ rule : Rule, rule.request? = none ↔ rule = .unconditional) ∧
      ∀ (rule : Rule) (request : Request), rule.request? = some request →
        ∃ draft, request.rules = some draft ∧ draft ≠ [] ∧ [] ∉ draft) := by
  refine ⟨?_, ?_, fun _ => request?_eq_none_iff, ?_⟩
  · intro request action tenant serve body flow owner h
    obtain ⟨rules, -⟩ := result_eq_conditional_iff.1 h
    rw [request?_conditional, ← rules]
  · intro body flow tenant serve
    refine ⟨⟨some body.draft⟩, request?_conditional body flow tenant, ?_⟩
    have hasFlow : Action.preIssueAccessToken.flow? = some flow := by cases flow; rfl
    rw [result_eq_conditional_iff]
    exact ⟨fun ⟨_, _, _, served⟩ => served, fun served => ⟨rfl, hasFlow, rfl, served⟩⟩
  · intro rule request h
    cases rule with
    | unconditional => cases h
    | conditional body flow tenant =>
      rw [request?_conditional] at h
      cases h
      exact ⟨body.draft, rfl, body.draft_ne_nil, body.nil_notMem_draft⟩

/-- An operator whose token is not its name, a value of one blank and a repeated group are all answered as they were asked
for. -/
theorem Rule.request_inverse_repeated_group :
    let serve := (Registry.builtIn.run [.field .preIssueAccessToken ⟨"riskScore", [.oneOf]⟩]).lookup
    let a : Expression := ⟨"riskScore", .oneOf, "80", by decide, by decide⟩
    let b : Expression := ⟨"application", .equals, " ", by decide, by decide⟩
    let body : Body := ⟨[⟨[a, b], List.cons_ne_nil a [b]⟩, ⟨[a, b], List.cons_ne_nil a [b]⟩], List.cons_ne_nil _ _⟩
    let group : List Term := [⟨"riskScore", "in", "80"⟩, ⟨"application", "equals", " "⟩]
    (ofRequest ⟨some [group, group]⟩ .preIssueAccessToken "carbon.super" serve).result =
        .ok (.conditional body .preIssueAccessToken "carbon.super") ∧
      (conditional body .preIssueAccessToken "carbon.super").request? = some ⟨some [group, group]⟩ ∧
      ∃ draft, some [group, group] = some draft ∧ draft ≠ [] ∧ [] ∉ draft := by
  intro serve a b body group
  have admitted : (ofRequest ⟨some [group, group]⟩ .preIssueAccessToken "carbon.super" serve).result =
      .ok (.conditional body .preIssueAccessToken "carbon.super") := by rfl
  obtain ⟨answers, -, -, filled⟩ := request_inverse
  have answered := answers _ _ _ _ _ _ _ admitted
  exact ⟨admitted, answered, filled _ _ answered⟩

end GateRules
