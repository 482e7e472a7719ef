import GateRules.Proofs.Agreement
import GateRules.Proofs.Indexing

/-!
# What more fields change

A registry that more fields are registered in permits more. A step without an outage takes nothing from any vocabulary
(`Registry.grows_apply`), so neither does a run of such steps, nor the merge that is made when a vocabulary is looked up. What
comes in under the larger registry then comes to the same or fares better (`Rule.Eased`): the first expression that is outside
the larger vocabulary was outside the smaller one, and so it does not stand before the first that was.
-/

namespace GateRules

/-! ## Vocabularies -/

/-- One vocabulary has everything that another has. -/
structure Vocabulary.Extends (w v : Vocabulary) : Prop where
  known : ∀ field, w.get? field = none → v.get? field = none
  permits : ∀ field operator, v.permits field operator = true → w.permits field operator = true

theorem Vocabulary.Extends.refl (v : Vocabulary) : v.Extends v :=
  ⟨fun _ h => h, fun _ _ h => h⟩

theorem Vocabulary.Extends.trans {u v w : Vocabulary} (h : w.Extends v) (h' : v.Extends u) : w.Extends u :=
  ⟨fun field unknown => h'.known field (h.known field unknown),
    fun field operator permitted => h.permits field operator (h'.permits field operator permitted)⟩

/-- The fields and operators of a merged vocabulary are those of the two. -/
theorem Vocabulary.Extends.merge {v w x y : Vocabulary} (h : w.Extends v) (h' : y.Extends x) :
    (w.merge y).Extends (v.merge x) where
  known field := by
    have first := h.known field
    have second := h'.known field
    simp only [get?_eq_none_iff] at first second ⊢
    simp only [Vocabulary.merge, mem_names_registerAll_iff, not_or]
    rintro ⟨hw, hy⟩
    exact ⟨first hw, second hy⟩
  permits field operator := by
    have second := h'.permits field operator
    rw [permits_iff, permits_iff] at second
    simp only [Vocabulary.merge, permits_registerAll_iff]
    exact Or.imp (h.permits field operator) second

/-- To register a field takes nothing from a vocabulary. -/
theorem Vocabulary.extends_register (v : Vocabulary) (entry : Entry) : (v.register entry).Extends v where
  known field := by
    rw [get?_eq_none_iff, get?_eq_none_iff, mem_names_register_iff]
    exact fun h hv => h (.inl hv)
  permits field operator h := permits_register_iff.2 (.inl h)

/-! ## Registries -/

/-- One registry serves every flow and tenant that another serves, with at least the same fields. -/
structure Registry.Grows (r s : Registry) : Prop where
  flows : ∀ flow v, r.flows flow = some v → ∃ w, s.flows flow = some w ∧ w.Extends v
  extensions : ∀ tenant flow, (s.extensions tenant flow).Extends (r.extensions tenant flow)
  isDown : ∀ tenant, s.isDown tenant = true → r.isDown tenant = true

theorem Registry.Grows.refl (r : Registry) : r.Grows r :=
  ⟨fun _ v h => ⟨v, h, .refl v⟩, fun _ _ => .refl _, fun _ h => h⟩

theorem Registry.Grows.trans {r s t : Registry} (h : r.Grows s) (h' : s.Grows t) : r.Grows t where
  flows flow v hv := by
    obtain ⟨w, hw, larger⟩ := h.flows flow v hv
    obtain ⟨x, hx, larger'⟩ := h'.flows flow w hw
    exact ⟨x, hx, larger'.trans larger⟩
  extensions tenant flow := (h'.extensions tenant flow).trans (h.extensions tenant flow)
  isDown tenant hd := h.isDown tenant (h'.isDown tenant hd)

/-- A registry grows by every step that is no outage. -/
theorem Registry.grows_apply (r : Registry) {s : Step} (h : ∀ tenant, .unavailable tenant ≠ s) : r.Grows (r.apply s) where
  flows flow v hv := by
    rw [flows_apply]
    cases s.field? flow with
    | none => exact ⟨v, hv, .refl v⟩
    | some entry => exact ⟨_, rfl, by rw [hv]; exact v.extends_register entry⟩
  extensions tenant flow := by
    rw [extensions_apply]
    cases s.tenantField? tenant flow with
    | none => exact .refl _
    | some entry => exact Vocabulary.extends_register _ entry
  isDown tenant hd := ((isDown_apply r s tenant).1 hd).resolve_right (h tenant)

/-- A registry grows by every run without an outage. -/
theorem Registry.grows_run (r : Registry) {steps : List Step} (h : ∀ tenant, .unavailable tenant ∉ steps) :
    r.Grows (r.run steps) := by
  induction steps generalizing r with
  | nil => exact .refl r
  | cons s steps ih =>
    have here : ∀ tenant, .unavailable tenant ≠ s := fun tenant hs => h tenant (hs ▸ List.mem_cons_self)
    have later : ∀ tenant, .unavailable tenant ∉ steps := fun tenant hs => h tenant (List.mem_cons_of_mem s hs)
    rw [run_cons]
    exact (r.grows_apply here).trans (ih (r.apply s) later)

/-- What a registry serves, one that it grew to serves with at least the same fields. -/
theorem Registry.Grows.lookup {r s : Registry} (h : r.Grows s) {flow : Flow} {tenant : String} {v : Vocabulary}
    (served : r.lookup flow tenant = .ok v) : ∃ w, s.lookup flow tenant = .ok w ∧ w.Extends v := by
  obtain ⟨kept, rfl⟩ := lookup_eq_ok_iff.1 served
  rw [not_or] at kept
  obtain ⟨f, hf⟩ := Option.ne_none_iff_exists'.1 kept.2
  obtain ⟨g, hg, larger⟩ := h.flows flow f hf
  refine ⟨g.merge (s.extensions tenant flow), ?_, ?_⟩
  · rw [lookup_eq_ok_iff, hg, Option.getD_some]
    refine ⟨?_, rfl⟩
    rintro (down | none)
    · exact kept.1 (h.isDown tenant down)
    · cases none
  · rw [hf, Option.getD_some]
    exact larger.merge (h.extensions tenant flow)

/-! ## Refusals -/

/-- Whether a defect is what a vocabulary has against an expression. -/
def Defect.isOutside : Defect → Bool
  | .unknownField .. | .unsupportedOperator .. => true
  | _ => false

/-- Whether a refusal comes from a vocabulary that was looked up, or from there being none. All others come before. -/
def Refusal.isAfterLookup : Refusal → Bool
  | .noVocabulary _ => true
  | .invalid (.atExpression _ _ source) => source.isOutside
  | _ => false

/-- What a vocabulary has against an expression may stay as it is, and a field that was not known may become one that is
known without the operator. Never the other way around. -/
inductive Defect.GivesWay : Defect → Defect → Prop
  | same (defect : Defect) : GivesWay defect defect
  | known (field : String) (operator : Operator) (flow : Flow) :
      GivesWay (.unknownField field flow) (.unsupportedOperator field operator flow)

/-- What may become of a result when there are more fields. A rule stays as it is, and so does a refusal that came before the
lookup. A refusal of an expression for its field or operator goes away, or becomes one that stands further to the right, or
stays where it is and at most gives way to one for the operator. -/
structure Rule.Eased (before after : Except Refusal Rule) : Prop where
  rule : ∀ rule, before = .ok rule → after = .ok rule
  early : ∀ refusal, before = .error refusal → refusal.isAfterLookup = false → after = .error refusal
  outside : ∀ group index source, before = .error (.invalid (.atExpression group index source)) → source.isOutside = true →
    (∃ rule, after = .ok rule) ∨
    ∃ group' index' source', after = .error (.invalid (.atExpression group' index' source')) ∧ source'.isOutside = true ∧
      (group < group' ∨ (group = group' ∧ index ≤ index')) ∧
      (group = group' → index = index' → source.GivesWay source')

theorem Rule.Eased.of_ok (rule : Rule) : Eased (.ok rule) (.ok rule) where
  rule _ h := h
  early _ h := nomatch h
  outside _ _ _ h := nomatch h

theorem Rule.Eased.of_early {refusal : Refusal} (early : refusal.isAfterLookup = false) :
    Eased (.error refusal) (.error refusal) where
  rule _ h := nomatch h
  early _ h _ := h
  outside group index source h out := by
    cases h
    exact nomatch early.symm.trans out

/-- Where no vocabulary was served, everything is at least as good. -/
theorem Rule.Eased.of_unserved (fault : RegistryFault) (after : Except Refusal Rule) :
    Eased (.error (.noVocabulary fault)) after where
  rule _ h := nomatch h
  early _ h late := by
    cases h
    cases late
  outside _ _ _ h := nomatch h

/-- A term is never refused for a vocabulary. -/
theorem Expression.isOutside_of_ofTerm {t : Term} {defect : Defect} (h : ofTerm t = .error defect) :
    defect.isOutside = false := by
  unfold ofTerm at h
  split at h
  · cases h
    rfl
  split at h
  · cases h
    rfl
  split at h
  · cases h
    rfl
  · unfold make at h
    split at h
    · split at h
      · cases h
      · cases h
        rfl
    · cases h
      rfl

/-- What is at fault in a draft is found before the lookup. -/
theorem Draft.Fault.isAfterLookup {draft : Draft} {defect : Defect} (h : draft.Fault defect) :
    (Refusal.invalid defect).isAfterLookup = false := by
  cases h with
  | emptyGroup here earlier => rfl
  | rejected first earlier why => exact Expression.isOutside_of_ofTerm why

theorem Vocabulary.Refuses.isOutside {v : Vocabulary} {flow : Flow} {e : Expression} {defect : Defect}
    (h : v.Refuses flow e defect) : defect.isOutside = true := by
  cases h <;> rfl

/-- What a larger vocabulary has against an expression. -/
theorem Vocabulary.Extends.givesWay {v w : Vocabulary} (h : w.Extends v) {flow : Flow} {e : Expression} {before after : Defect}
    (why : v.Refuses flow e before) (why' : w.Refuses flow e after) : before.GivesWay after := by
  cases why with
  | unknown _ =>
    cases why' with
    | unknown _ => exact .same _
    | unsupported _ _ => exact .known ..
  | unsupported known _ =>
    cases why' with
    | unknown unknown => exact nomatch known.symm.trans (h.known _ unknown)
    | unsupported _ _ => exact .same _

/-- An expression outside the larger vocabulary is outside the smaller one. -/
theorem Vocabulary.Extends.outside {v w : Vocabulary} (h : w.Extends v) {e : Expression} (out : w.Outside e) :
    v.Outside e := by
  rw [Outside, ← Bool.not_eq_true] at out ⊢
  intro permitted
  exact out (h.permits _ _ permitted)

/-! ## What comes in -/

/-- A refusal for the first expression that is outside a vocabulary, and what a larger vocabulary makes of it. -/
theorem Rule.Eased.of_outside {v w : Vocabulary} (larger : w.Extends v) {body : Body} {flow : Flow} {group index : Nat}
    {e : Expression} {source : Defect} (first : FirstAt v.Outside body.groups group index e) (why : v.Refuses flow e source)
    {request : Request} {action : Action} {tenant : String} {serve : Lookup} (rules : request.rules = some body.draft)
    (hasFlow : action.flow? = some flow) (served : serve flow tenant = .ok w) :
    Eased (.error (.invalid (.atExpression group index source))) (ofRequest request action tenant serve).result where
  rule _ h := nomatch h
  early _ h early := by
    cases h
    exact nomatch early.symm.trans why.isOutside
  outside group' index' source' h out := by
    cases h
    cases objection : w.firstObjection? flow body.groups with
    | none =>
      have permitted := Vocabulary.firstObjection?_eq_none_iff.1 objection
      exact .inl ⟨_, (Request.Outcome.admitted rules hasFlow served permitted).result_eq⟩
    | some defect =>
      obtain ⟨group', index', e', source', first', why', rfl⟩ := Vocabulary.firstObjection?_eq_some_iff.1 objection
      have refused := (Request.Outcome.outside rules hasFlow served first' why').result_eq
      refine .inr ⟨group', index', source', refused, why'.isOutside, first.le first' larger.outside, ?_⟩
      -- at one place stands one expression, so the two vocabularies are asked about the same field and operator
      rintro rfl rfl
      obtain rfl := first.stands.unique first'.stands
      exact larger.givesWay why why'

/-- What a request comes to under a registry, and what under one that it grew to. -/
theorem Rule.eased_ofRequest {r s : Registry} (grows : r.Grows s) (request : Request) (action : Action) (tenant : String) :
    Eased (ofRequest request action tenant r.lookup).result (ofRequest request action tenant s.lookup).result := by
  obtain ⟨result, kind, outcome⟩ := request.exists_outcome action tenant r.lookup
  rw [outcome.result_eq]
  cases outcome with
  | noRule h =>
    rw [(Request.Outcome.noRule h).result_eq]
    exact .of_ok _
  | noFlow rules asked h =>
    rw [(Request.Outcome.noFlow rules asked h).result_eq]
    exact .of_early rfl
  | fault rules asked hasFlow h =>
    rw [(Request.Outcome.fault rules asked hasFlow h).result_eq]
    exact .of_early h.isAfterLookup
  | noVocabulary rules hasFlow h => exact .of_unserved _ _
  | outside rules hasFlow served first why =>
    obtain ⟨w, served', larger⟩ := grows.lookup served
    exact .of_outside larger first why rules hasFlow served'
  | admitted rules hasFlow served permitted =>
    obtain ⟨w, served', larger⟩ := grows.lookup served
    have permitted' := fun group hg e he => larger.permits _ _ (permitted group hg e he)
    rw [(Request.Outcome.admitted rules hasFlow served' permitted').result_eq]
    exact .of_ok _

/-- What a draft comes to under a registry, and what under one that it grew to. -/
theorem Rule.eased_ofDraft {r s : Registry} (grows : r.Grows s) {draft : Draft} (asked : draft ≠ []) (action : Action)
    (tenant : String) :
    Eased (ofDraft draft action tenant r.lookup).result (ofDraft draft action tenant s.lookup).result := by
  have rules : (⟨some draft⟩ : Request).rules = some draft := rfl
  rw [← ofRequest_of_rules rules asked, ← ofRequest_of_rules rules asked]
  exact eased_ofRequest grows ⟨some draft⟩ action tenant

/-- To register more fields in a registry, for all tenants or for single ones, never makes a rule invalid and never moves a
refusal to the left: whatever comes in, as a request, as JSON or in notation, for whatever action and tenant, either fares as
it did or fares better in the way that `Rule.Eased` says. -/
theorem Registry.more_fields_ease (r : Registry) {more : List Step} (noOutage : ∀ tenant, .unavailable tenant ∉ more)
    (action : Action) (tenant : String) :
    (∀ request, Rule.Eased (Rule.ofRequest request action tenant r.lookup).result
      (Rule.ofRequest request action tenant (r.run more).lookup).result) ∧
    (∀ text, Rule.Eased (Rule.ofJson text action tenant r.lookup).result
      (Rule.ofJson text action tenant (r.run more).lookup).result) ∧
    (∀ text, Rule.Eased (Rule.ofNotation text action tenant r.lookup).result
      (Rule.ofNotation text action tenant (r.run more).lookup).result) := by
  have grows : r.Grows (r.run more) := r.grows_run noOutage
  refine ⟨?_, ?_, ?_⟩
  · intro request
    exact Rule.eased_ofRequest grows request action tenant
  · intro text
    unfold Rule.ofJson
    cases Request.ofJson text with
    | error fault => exact .of_early rfl
    | ok request => exact Rule.eased_ofRequest grows request action tenant
  · intro text
    cases read : Notation.read text with
    | error misread =>
      rw [Rule.ofNotation_of_misread read, Rule.ofNotation_of_misread read]
      exact .of_early rfl
    | ok draft =>
      by_cases asked : draft = []
      · subst asked
        rw [Rule.ofNotation_of_nil read, Rule.ofNotation_of_nil read]
        exact .of_ok _
      · rw [Rule.ofNotation_of_groups read asked, Rule.ofNotation_of_groups read asked]
        exact Rule.eased_ofDraft grows asked action tenant

/-- With a field that was not known, the refusal of the first group goes away, and that of the second comes to light. -/
theorem Registry.more_fields_ease_moved :
    let more : List Step := [.tenantField "acme.com" .preIssueAccessToken ⟨"ip", []⟩,
      .field .preIssueAccessToken ⟨"ip", [.equals]⟩]
    let request : Request := ⟨some [[⟨"application", "equals", "console"⟩, ⟨"ip", "equals", "::1"⟩], [⟨"ip", "in", "::1"⟩]]⟩
    let before := (Rule.ofRequest request .preIssueAccessToken "acme.com" builtIn.lookup).result
    let after := (Rule.ofRequest request .preIssueAccessToken "acme.com" (builtIn.run more).lookup).result
    before = .error (.invalid (.atExpression 0 1 (.unknownField "ip" .preIssueAccessToken))) ∧
      after = .error (.invalid (.atExpression 1 0 (.unsupportedOperator "ip" .oneOf .preIssueAccessToken))) ∧
      Rule.Eased before after := by
  intro more request before after
  have noOutage : ∀ tenant, .unavailable tenant ∉ more := by simp [more]
  obtain ⟨requests, -⟩ := more_fields_ease builtIn noOutage .preIssueAccessToken "acme.com"
  exact ⟨by decide, by decide, requests request⟩

end GateRules
