import GateRules.Admission
import GateRules.Proofs.Registering

/-!
# What a tenant can see of others

Two registries that keep the same for a tenant serve the tenant the same, and whatever comes in for a tenant comes to the
same if the tenant is served the same (`Rule.ofDraft_congr`). So all that has to be known of a run of steps is what it keeps
for the tenant: the fields of the flows, the fields of the tenant, and whether the tenant is served anything at all.
-/

namespace GateRules

/-! ## Runs that are alike for a tenant -/

/-- Whether a step registers a field for all tenants. -/
def Registry.Step.isShared : Step → Bool
  | .field .. => true
  | .tenantField .. | .unavailable _ => false

/-- Whether a step registers a field for this tenant only. -/
def Registry.Step.isOwn (tenant : String) : Step → Bool
  | .tenantField t .. => t = tenant
  | .field .. | .unavailable _ => false

/-- Two runs are alike for a tenant if they register the same fields in the same order for all tenants, the same fields in the
same order for this one, and either both of them or none of them makes the tenant unavailable. Nothing is said of steps that
name other tenants, nor of how the steps of one sort stand among those of another. -/
structure Registry.AlikeFor (tenant : String) (a b : List Step) : Prop where
  shared : a.filter Step.isShared = b.filter Step.isShared
  own : a.filter (Step.isOwn tenant) = b.filter (Step.isOwn tenant)
  down : .unavailable tenant ∈ a ↔ .unavailable tenant ∈ b

/-- Only steps for all tenants register fields of a flow for all tenants. -/
theorem Registry.fieldsOf_filter_isShared (flow : Flow) (steps : List Step) :
    fieldsOf flow (steps.filter Step.isShared) = fieldsOf flow steps := by
  rw [fieldsOf, fieldsOf, List.filterMap_filter]
  congr 1
  funext s
  cases s <;> rfl

/-- Only the steps of a tenant register fields of a flow for the tenant. -/
theorem Registry.tenantFieldsOf_filter_isOwn (tenant : String) (flow : Flow) (steps : List Step) :
    tenantFieldsOf tenant flow (steps.filter (Step.isOwn tenant)) = tenantFieldsOf tenant flow steps := by
  rw [tenantFieldsOf, tenantFieldsOf, List.filterMap_filter]
  congr 1
  funext s
  cases s with
  | field f entry => rfl
  | tenantField t f entry =>
    by_cases h : t = tenant <;> simp [Step.isOwn, Step.tenantField?, h]
  | unavailable t => rfl

/-! ## Registries that are the same for a tenant -/

/-- Two registries are the same for a tenant if they keep the same vocabularies for all tenants and the same for this one. -/
structure Registry.SameFor (tenant : String) (r s : Registry) : Prop where
  flows : ∀ flow, r.flows flow = s.flows flow
  extensions : ∀ flow, r.extensions tenant flow = s.extensions tenant flow
  isDown : r.isDown tenant = s.isDown tenant

/-- Registries that are the same for a tenant serve that tenant the same. -/
theorem Registry.SameFor.lookup_eq {tenant : String} {r s : Registry} (h : SameFor tenant r s) (flow : Flow) :
    r.lookup flow tenant = s.lookup flow tenant := by
  simp only [lookup, h.flows, h.extensions, h.isDown]

/-- The vocabulary that a run leaves a flow with is told by the fields that are registered for the flow. -/
theorem Registry.flows_run_congr (r : Registry) {a b : List Step} {flow : Flow} (h : fieldsOf flow a = fieldsOf flow b) :
    (r.run a).flows flow = (r.run b).flows flow := by
  -- that the flow has a vocabulary at all is not told by the fields of the vocabulary
  have kept := getD_flows_run r a flow
  have unset := flows_run_eq_none_iff r a flow
  rw [h, ← getD_flows_run] at kept
  rw [h, ← flows_run_eq_none_iff] at unset
  cases ha : (r.run a).flows flow <;> cases hb : (r.run b).flows flow <;> simp_all

/-- Runs that are alike for a tenant make one registry into two that are the same for the tenant. -/
theorem Registry.AlikeFor.sameFor {tenant : String} {a b : List Step} (h : AlikeFor tenant a b) (r : Registry) :
    SameFor tenant (r.run a) (r.run b) where
  flows flow := by
    apply flows_run_congr
    rw [← fieldsOf_filter_isShared, h.shared, fieldsOf_filter_isShared]
  extensions flow := by
    rw [extensions_run, extensions_run, ← tenantFieldsOf_filter_isOwn, h.own, tenantFieldsOf_filter_isOwn]
  isDown := by rw [Bool.eq_iff_iff, isDown_run, isDown_run, h.down]

/-! ## What comes in for a tenant -/

/-- A builder depends on the lookup only through what is served for its flow and tenant. -/
theorem Builder.create_congr {serve other : Lookup} {flow : Flow} {tenant : String}
    (h : serve flow tenant = other flow tenant) : create serve flow tenant = create other flow tenant := by
  simp only [create, h]

/-- What a draft comes to for a tenant, and what is told of it, depends on nothing but what the tenant is served. -/
theorem Rule.ofDraft_congr {serve other : Lookup} {tenant : String} (h : ∀ flow, serve flow tenant = other flow tenant)
    (draft : Draft) (action : Action) : ofDraft draft action tenant serve = ofDraft draft action tenant other := by
  simp only [ofDraft, ofExpressions, Builder.create_congr (h _)]

/-- A request depends on the lookup only through what is served for its tenant. -/
theorem Rule.ofRequest_congr {serve other : Lookup} {tenant : String} (h : ∀ flow, serve flow tenant = other flow tenant)
    (request : Request) (action : Action) :
    ofRequest request action tenant serve = ofRequest request action tenant other := by
  simp only [ofRequest, ofDraft_congr h]

/-- A tenant is isolated from all others: two runs that are alike for the tenant, from one registry, leave registries under
which every request, every text in JSON and every text in notation comes to the same for the tenant, be it a rule or a
refusal, and the same is told of it. -/
theorem Registry.tenant_isolated {tenant : String} {a b : List Step} (alike : AlikeFor tenant a b) (r : Registry)
    (action : Action) :
    (∀ request, Rule.ofRequest request action tenant (r.run a).lookup =
      Rule.ofRequest request action tenant (r.run b).lookup) ∧
    (∀ text, Rule.ofJson text action tenant (r.run a).lookup = Rule.ofJson text action tenant (r.run b).lookup) ∧
    (∀ text, Rule.ofNotation text action tenant (r.run a).lookup =
      Rule.ofNotation text action tenant (r.run b).lookup) := by
  have served : ∀ flow, (r.run a).lookup flow tenant = (r.run b).lookup flow tenant := (alike.sameFor r).lookup_eq
  refine ⟨?_, ?_, ?_⟩
  · intro request
    exact Rule.ofRequest_congr served request action
  · intro text
    simp only [Rule.ofJson, Rule.ofRequest_congr served]
  · intro text
    simp only [Rule.ofNotation, Rule.ofDraft_congr served]

/-- Another tenant may register a field of the same name or be made unavailable, before or after: a rule of this tenant on the
field that both have is admitted alike. -/
theorem Registry.tenant_isolated_same_field :
    let own : Step := .tenantField "acme.com" .preIssueAccessToken ⟨"role", [.equals]⟩
    let shared : Step := .field .preIssueAccessToken ⟨"ip", [.oneOf]⟩
    let a : List Step := [own, .tenantField "other.example" .preIssueAccessToken ⟨"role", [.contains]⟩, shared]
    let b : List Step := [shared, .unavailable "other.example", own]
    let request : Request := ⟨some [[⟨"role", "equals", "admin"⟩]]⟩
    AlikeFor "acme.com" a b ∧
      (∃ body, (Rule.ofRequest request .preIssueAccessToken "acme.com" (builtIn.run a).lookup).result =
        .ok (.conditional body .preIssueAccessToken "acme.com")) ∧
      Rule.ofRequest request .preIssueAccessToken "other.example" (builtIn.run a).lookup ≠
        Rule.ofRequest request .preIssueAccessToken "other.example" (builtIn.run b).lookup := by
  intro own shared a b request
  have alike : AlikeFor "acme.com" a b := ⟨by decide, by decide, by decide⟩
  obtain ⟨requests, -⟩ := tenant_isolated alike builtIn .preIssueAccessToken
  let e : Expression := ⟨"role", .equals, "admin", by decide, by decide⟩
  refine ⟨alike, ⟨⟨[⟨[e], List.cons_ne_nil e []⟩], List.cons_ne_nil _ _⟩, ?_⟩, ?_⟩
  · rw [requests]
    rfl
  · intro same
    cases congrArg Logged.result same

end GateRules
