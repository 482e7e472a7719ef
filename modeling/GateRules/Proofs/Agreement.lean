import GateRules.Proofs.Writing

/-!
# Notation and requests agree

A text in notation and a request that asks for the same groups come to the same, whatever it is, and the same is told on the
way. Only where no rule is asked for does an event say in which form that happened; everything else that is told is told
after the draft is known, and says nothing of where the draft is from (`Rule.inNotation_of_mem_log`).
-/

namespace GateRules

/-! ## Events of the two forms -/

/-- The event that is told for a text in notation where this one is told for a request. -/
def Event.inNotation : Event → Event
  | .noRuleInRequest action tenant => .noRuleInNotation action tenant
  | event => event

/-- The events of the two forms matter as much as each other and carry the same values. -/
theorem Event.level_data_inNotation (event : Event) :
    event.inNotation.level = event.level ∧ event.inNotation.data = event.data := by
  cases event <;> exact ⟨rfl, rfl⟩

/-- The events of the two forms have different messages only where there is no rule. -/
theorem Event.message_inNotation_ne_iff (event : Event) :
    event.inNotation.message ≠ event.message ↔ ∃ action tenant, event = .noRuleInRequest action tenant := by
  cases event <;> simp [inNotation, message]

/-- What is told when a builder is created is not about a request. -/
theorem Builder.inNotation_of_mem_create {serve : Lookup} {flow : Flow} {tenant : String} {event : Event}
    (h : event ∈ (create serve flow tenant).log) : event.inNotation = event := by
  unfold create at h
  split at h
  · cases h
  · rw [List.mem_singleton] at h
    subst h
    rfl

/-- What is told when a body is built is not about a request. -/
theorem Builder.inNotation_of_mem_build {b : Builder} {event : Event} (h : event ∈ b.build.log) :
    event.inNotation = event := by
  unfold build at h
  split at h
  · cases h
  · rw [List.mem_singleton] at h
    subst h
    rfl

/-- Nothing that is told while a rule is built says in what form it was asked for. -/
theorem Rule.inNotation_of_mem_ofExpressions {groups : List (List Expression)} {flow : Flow} {tenant : String}
    {serve : Lookup} {event : Event} (h : event ∈ (ofExpressions groups flow tenant serve).log) :
    event.inNotation = event := by
  simp only [ofExpressions] at h
  split at h
  · rw [List.mem_append, List.mem_singleton] at h
    rcases h with h | rfl
    · exact Builder.inNotation_of_mem_create h
    · rfl
  · split at h
    · exact Builder.inNotation_of_mem_create h
    · split at h <;>
      · rw [List.mem_append] at h
        exact h.elim Builder.inNotation_of_mem_create Builder.inNotation_of_mem_build

/-- What is told of a draft is the same for both forms. -/
theorem Rule.inNotation_of_mem_log {draft : Draft} {action : Action} {tenant : String} {serve : Lookup} {event : Event}
    (h : event ∈ (ofDraft draft action tenant serve).log) : event.inNotation = event := by
  unfold ofDraft at h
  split at h
  · cases h
  · split at h
    · cases h
    · exact inNotation_of_mem_ofExpressions h

/-- What is told of a draft is told in the same words for notation. -/
theorem Rule.map_inNotation_log (draft : Draft) (action : Action) (tenant : String) (serve : Lookup) :
    (ofDraft draft action tenant serve).log.map Event.inNotation = (ofDraft draft action tenant serve).log := by
  have same : ∀ event ∈ (ofDraft draft action tenant serve).log, event.inNotation = id event := fun _ =>
    inNotation_of_mem_log
  rw [List.map_congr_left same, List.map_id]

/-! ## The two forms -/

/-- A text that is no notation is refused with the place where it was misread, and nothing is told. -/
theorem Rule.ofNotation_of_misread {text : String} {misread : Notation.Misread}
    (h : Notation.read text = .error misread) (action : Action) (tenant : String) (serve : Lookup) :
    ofNotation text action tenant serve = .refuse (.misread misread) := by
  simp only [ofNotation, h]

/-- A text that writes down no groups is one that asks for no rule. -/
theorem Rule.ofNotation_of_nil {text : String} (h : Notation.read text = .ok []) (action : Action) (tenant : String)
    (serve : Lookup) : ofNotation text action tenant serve = ⟨.ok .unconditional, [.noRuleInNotation action tenant]⟩ := by
  simp only [ofNotation, h]

/-- A text for at least one group comes to what its draft comes to. -/
theorem Rule.ofNotation_of_groups {text : String} {draft : Draft} (h : Notation.read text = .ok draft)
    (asked : draft ≠ []) (action : Action) (tenant : String) (serve : Lookup) :
    ofNotation text action tenant serve = ofDraft draft action tenant serve := by
  cases draft with
  | nil => exact absurd rfl asked
  | cons terms more => simp only [ofNotation, h]

/-- A text and the request for the groups that it writes down come to the same, in three parts, for every action and tenant
and whatever is served.
1. A text that is no notation is refused as misread, which is the client's fault, and nothing is told of it.
2. A text that is read comes to the rule, or to the refusal, that the request for its groups exactly as they are written
   comes to; `Request.Outcome` says which that is. It tells what the request tells, in the words for notation.
3. Those words differ in the message about a missing rule and in nothing else. -/
theorem Rule.ofNotation_agrees (text : String) (action : Action) (tenant : String) (serve : Lookup) :
    (∀ misread, Notation.read text = .error misread →
      ofNotation text action tenant serve = ⟨.error (.misread misread), []⟩ ∧ (Refusal.misread misread).kind = .client) ∧
    (∀ draft, Notation.read text = .ok draft →
      (ofNotation text action tenant serve).result = (ofRequest ⟨some draft⟩ action tenant serve).result ∧
      (∃ kind, Request.Outcome ⟨some draft⟩ action tenant serve (ofNotation text action tenant serve).result kind) ∧
      (ofNotation text action tenant serve).log = (ofRequest ⟨some draft⟩ action tenant serve).log.map Event.inNotation) ∧
    (∀ event : Event, event.inNotation.level = event.level ∧ event.inNotation.data = event.data ∧
      (event.inNotation.message ≠ event.message ↔ ∃ action tenant, event = .noRuleInRequest action tenant)) := by
  refine ⟨?_, ?_, ?_⟩
  · intro misread h
    exact ⟨ofNotation_of_misread h action tenant serve, rfl⟩
  · intro draft h
    have same : (ofNotation text action tenant serve).result = (ofRequest ⟨some draft⟩ action tenant serve).result ∧
        (ofNotation text action tenant serve).log =
          (ofRequest ⟨some draft⟩ action tenant serve).log.map Event.inNotation := by
      by_cases asked : draft = []
      · subst asked
        rw [ofNotation_of_nil h]
        exact ⟨rfl, rfl⟩
      · rw [ofNotation_of_groups h asked, ofRequest_of_rules rfl asked, map_inNotation_log]
        exact ⟨rfl, rfl⟩
    obtain ⟨result, kind, outcome⟩ := Request.exists_outcome ⟨some draft⟩ action tenant serve
    have comes : (ofNotation text action tenant serve).result = result := same.1.trans outcome.result_eq
    exact ⟨same.1, ⟨kind, comes ▸ outcome⟩, same.2⟩
  · intro event
    obtain ⟨level, data⟩ := event.level_data_inNotation
    exact ⟨level, data, event.message_inNotation_ne_iff⟩

/-- A text with two groups is refused where the request for its groups is, at the first term of the second group; a text
that ends after a field is misread. -/
theorem Rule.ofNotation_agrees_outside :
    let a : Expression := ⟨"grantType", .equals, "password", by decide, by decide⟩
    let b : Expression := ⟨"user agent", .contains, "\"", by decide, by decide⟩
    let body : Body := ⟨[⟨[a], List.cons_ne_nil a []⟩, ⟨[b], List.cons_ne_nil b []⟩], List.cons_ne_nil _ _⟩
    (ofNotation body.text .preIssueAccessToken "carbon.super" Registry.builtIn.lookup).result =
        .error (.invalid (.atExpression 1 0 (.unknownField "user agent" .preIssueAccessToken))) ∧
      ofNotation "grantType" .preIssueAccessToken "carbon.super" Registry.builtIn.lookup =
        ⟨.error (.misread ⟨"grantType", ⟨some .operator, []⟩⟩), []⟩ := by
  intro a b body
  have misread : Notation.read "grantType" = .error ⟨"grantType", ⟨some .operator, []⟩⟩ := by decide +kernel
  obtain ⟨-, agrees, -⟩ := ofNotation_agrees body.text .preIssueAccessToken "carbon.super" Registry.builtIn.lookup
  obtain ⟨refused, -⟩ := ofNotation_agrees "grantType" .preIssueAccessToken "carbon.super" Registry.builtIn.lookup
  refine ⟨?_, (refused _ misread).1⟩
  rw [(agrees _ body.read_text).1]
  decide

end GateRules
