import GateRules.Config
import GateRules.Proofs.Registering

/-!
# What a configuration means

A configuration is carried out in one go: the flows that are listed are set, and then every tenant takes its steps. What a flow
and a tenant get is told of the entries alone. Of the entries for a flow the last one counts (`Registry.flows_setAll`), and of
the steps those of the tenant's own entry do (`Registry.tenantFieldsOf_tenants`); each tenant is named once, so the order of the
tenants never matters.
-/

namespace GateRules

/-! ## What the entries say -/

/-- The fields of a flow, without those of tenants: what the last entry that names the flow lists, or the built-in fields if no
entry names it. -/
def Config.flowFields (config : Config) (flow : Flow) : List Entry :=
  match (config.flows.filter fun f => f.flow = flow).getLast? with
  | some last => last.fields
  | none => Vocabulary.builtIn.entries

/-- What a tenant's entry adds to a flow: the fields for every flow, and then the fields of all entries that name the flow. -/
def TenantEntry.fieldsFor (entry : TenantEntry) (flow : Flow) : List Entry :=
  entry.fields ++ (entry.flows.filter fun f => f.flow = flow).flatMap FlowEntry.fields

/-- What a tenant adds to a flow; nothing if it has no entry. -/
def Config.tenantFields (config : Config) (tenant : String) (flow : Flow) : List Entry :=
  match config.tenants.get? tenant with
  | some entry => entry.fieldsFor flow
  | none => []

/-! ## Tenants by name -/

/-- At most one of the tenants has a name. -/
theorem Tenants.filter_eq (tenants : Tenants) (name : String) :
    tenants.toList.filter (fun t => t.1 = name) = (tenants.get? name).toList.map (Prod.mk name) := by
  obtain ⟨entries, nodup⟩ := tenants
  simp only [get?]
  induction entries with
  | nil => rfl
  | cons t rest ih =>
    rw [List.map_cons, List.nodup_cons] at nodup
    by_cases h : t.1 = name
    · have others : rest.filter (fun u => u.1 = name) = [] := by
        rw [List.filter_eq_nil_iff]
        intro u hu hn
        exact nodup.1 (h.trans (of_decide_eq_true hn).symm ▸ List.mem_map_of_mem hu)
      simp [h, others, Prod.ext_iff]
    · simpa [List.find?_cons, List.filter_cons, h] using ih nodup.2

/-- The entry of a tenant is the one that stands in the list under the name, since no name stands twice. -/
theorem Tenants.get?_eq_some_iff {tenants : Tenants} {name : String} {entry : TenantEntry} :
    tenants.get? name = some entry ↔ (name, entry) ∈ tenants.toList := by
  have named : (name, entry) ∈ tenants.toList ↔ (name, entry) ∈ tenants.toList.filter fun t => t.1 = name := by
    simp [List.mem_filter]
  rw [named, filter_eq]
  simp

/-- A tenant has the same entry whatever the order of the tenants. -/
theorem Tenants.get?_of_perm {a b : Tenants} (h : a.toList.Perm b.toList) (name : String) : a.get? name = b.get? name := by
  apply Option.ext
  intro entry
  rw [get?_eq_some_iff, get?_eq_some_iff, h.mem_iff]

theorem flatMap_ite {α β : Type} (p : α → Prop) [DecidablePred p] (items : List α) (f : α → List β) :
    (items.flatMap fun a => if p a then f a else []) = (items.filter fun a => p a).flatMap f := by
  induction items with
  | nil => rfl
  | cons a rest ih =>
    rw [List.flatMap_cons, ih, List.filter_cons]
    by_cases h : p a <;> simp [h]

/-- What every tenant but one adds nothing to is what that one adds. -/
theorem Tenants.flatMap_eq {α : Type} (tenants : Tenants) (name : String) (f : TenantEntry → List α) :
    (tenants.toList.flatMap fun t => if t.1 = name then f t.2 else []) =
      match tenants.get? name with
      | some entry => f entry
      | none => [] := by
  rw [flatMap_ite (fun t => t.1 = name) tenants.toList fun t => f t.2, filter_eq]
  cases tenants.get? name with
  | none => rfl
  | some entry => exact List.append_nil _

/-! ## Steps of tenants -/

/-- A step that a tenant's entry asks for names the tenant, and is an outage only if the entry says so. -/
theorem TenantEntry.mem_steps {name : String} {entry : TenantEntry} {s : Registry.Step} (h : s ∈ entry.steps name) :
    (s = .unavailable name ∧ entry.isDown = true) ∨ ∃ flow field, s = .tenantField name flow field := by
  simp only [steps, List.mem_append, List.mem_flatMap, List.mem_map] at h
  rcases h with (h | ⟨field, -, flow, -, rfl⟩) | ⟨f, -, field, -, rfl⟩
  · split at h
    · rename_i down
      exact .inl ⟨List.mem_singleton.1 h, down⟩
    · cases h
  · exact .inr ⟨flow, field, rfl⟩
  · exact .inr ⟨f.flow, field, rfl⟩

/-- A tenant's entry registers nothing for another tenant. -/
theorem Registry.tenantFieldsOf_steps_of_ne {name tenant : String} (other : name ≠ tenant) (entry : TenantEntry)
    (flow : Flow) : tenantFieldsOf tenant flow (entry.steps name) = [] := by
  rw [tenantFieldsOf, List.filterMap_eq_nil_iff]
  intro s hs
  rcases TenantEntry.mem_steps hs with ⟨rfl, -⟩ | ⟨f, field, rfl⟩
  · rfl
  · exact if_neg fun both => other both.1

/-- The fields of a tenant come in the order of the steps. -/
theorem Registry.tenantFieldsOf_append (tenant : String) (flow : Flow) (a b : List Step) :
    tenantFieldsOf tenant flow (a ++ b) = tenantFieldsOf tenant flow a ++ tenantFieldsOf tenant flow b :=
  List.filterMap_append

theorem Registry.tenantFieldsOf_flatMap {α : Type} (tenant : String) (flow : Flow) (items : List α) (f : α → List Step) :
    tenantFieldsOf tenant flow (items.flatMap f) = items.flatMap fun a => tenantFieldsOf tenant flow (f a) :=
  List.filterMap_flatMap

/-- A field for every flow is registered once in each flow. -/
theorem Registry.tenantFieldsOf_map_all (name : String) (flow : Flow) (field : Entry) :
    tenantFieldsOf name flow (Flow.all.map fun f => .tenantField name f field) = [field] := by
  cases flow
  simp [tenantFieldsOf, Flow.all, Step.tenantField?]

/-- Fields for one flow are registered in that flow and in no other. -/
theorem Registry.tenantFieldsOf_map (name : String) (f flow : Flow) (fields : List Entry) :
    tenantFieldsOf name flow (fields.map fun field => .tenantField name f field) = if f = flow then fields else [] := by
  rw [tenantFieldsOf, List.filterMap_map]
  by_cases h : f = flow
  · subst h
    simp [Function.comp_def, Step.tenantField?]
  · rw [if_neg h, List.filterMap_eq_nil_iff]
    exact fun field _ => if_neg fun both => h both.2

/-- A tenant's entry registers for the tenant what it adds to each flow. -/
theorem Registry.tenantFieldsOf_steps (name : String) (entry : TenantEntry) (flow : Flow) :
    tenantFieldsOf name flow (entry.steps name) = entry.fieldsFor flow := by
  have down : tenantFieldsOf name flow (if entry.isDown then [.unavailable name] else []) = [] := by
    split <;> rfl
  have every : (fun field => tenantFieldsOf name flow (Flow.all.map fun f => .tenantField name f field)) =
      fun field => [field] := funext (tenantFieldsOf_map_all name flow)
  have single : (fun f : FlowEntry => tenantFieldsOf name flow (f.fields.map fun field => .tenantField name f.flow field)) =
      fun f => if f.flow = flow then f.fields else [] := funext fun f => tenantFieldsOf_map name f.flow flow f.fields
  rw [TenantEntry.steps, tenantFieldsOf_append, tenantFieldsOf_append, tenantFieldsOf_flatMap, tenantFieldsOf_flatMap, down,
    every, single, flatMap_ite, List.nil_append, List.flatMap_singleton', TenantEntry.fieldsFor]

/-- An entry takes down its own tenant and no other, and only if it says so. -/
theorem TenantEntry.unavailable_mem_steps {name tenant : String} {entry : TenantEntry} :
    .unavailable tenant ∈ entry.steps name ↔ name = tenant ∧ entry.isDown = true := by
  constructor
  · intro h
    rcases mem_steps h with ⟨hs, down⟩ | ⟨_, _, hs⟩
    · cases hs
      exact ⟨rfl, down⟩
    · cases hs
  · rintro ⟨rfl, down⟩
    simp [steps, down]

/-! ## Steps of all tenants -/

/-- The steps that the tenants' entries ask for. -/
def Tenants.steps (tenants : Tenants) : List Registry.Step := tenants.toList.flatMap fun t => t.2.steps t.1

/-- The entries of tenants add no field for all tenants. -/
theorem Registry.fieldsOf_tenants (tenants : Tenants) (flow : Flow) : fieldsOf flow tenants.steps = [] := by
  rw [fieldsOf_eq_nil_iff]
  intro field h
  obtain ⟨t, -, ht⟩ := List.mem_flatMap.1 h
  rcases TenantEntry.mem_steps ht with ⟨hs, -⟩ | ⟨_, _, hs⟩ <;> cases hs

/-- For a tenant the fields of its own entry are registered. -/
theorem Registry.tenantFieldsOf_tenants (tenants : Tenants) (tenant : String) (flow : Flow) :
    tenantFieldsOf tenant flow tenants.steps =
      match tenants.get? tenant with
      | some entry => entry.fieldsFor flow
      | none => [] := by
  have each : (fun t : String × TenantEntry => tenantFieldsOf tenant flow (t.2.steps t.1)) =
      fun t => if t.1 = tenant then t.2.fieldsFor flow else [] := by
    funext t
    split
    · rename_i h
      rw [← h, tenantFieldsOf_steps]
    · rename_i h
      exact tenantFieldsOf_steps_of_ne h t.2 flow
  rw [Tenants.steps, tenantFieldsOf_flatMap, each]
  exact tenants.flatMap_eq tenant fun entry => entry.fieldsFor flow

/-- A tenant is made unavailable if its own entry says so. -/
theorem Tenants.unavailable_mem_steps {tenants : Tenants} {tenant : String} :
    .unavailable tenant ∈ tenants.steps ↔ ∃ entry, tenants.get? tenant = some entry ∧ entry.isDown = true := by
  simp only [steps, List.mem_flatMap, TenantEntry.unavailable_mem_steps, get?_eq_some_iff]
  constructor
  · rintro ⟨⟨_, entry⟩, ht, rfl, down⟩
    exact ⟨entry, ht, down⟩
  · rintro ⟨entry, ht, down⟩
    exact ⟨_, ht, rfl, down⟩

/-! ## Flows -/

/-- A flow that is set has the listed fields alone, and the other flows stay as they were. -/
theorem Registry.flows_setFlow (r : Registry) (entry : FlowEntry) (flow : Flow) : (r.setFlow entry).flows flow =
    if flow = entry.flow then some (Vocabulary.empty.registerAll entry.fields) else r.flows flow := rfl

/-- After flows were set, a flow has what the last entry that names it lists. -/
theorem Registry.flows_setAll (r : Registry) (entries : List FlowEntry) (flow : Flow) :
    (entries.foldl setFlow r).flows flow = match (entries.filter fun f => f.flow = flow).getLast? with
      | some last => some (Vocabulary.empty.registerAll last.fields)
      | none => r.flows flow := by
  -- the registry is generalized: what an earlier entry set is what a later one starts from
  induction entries generalizing r with
  | nil => rfl
  | cons entry rest ih =>
    rw [List.foldl_cons, ih, flows_setFlow]
    by_cases h : entry.flow = flow
    · rw [if_pos h.symm, List.filter_cons, if_pos (decide_eq_true h), List.getLast?_cons]
      cases (rest.filter fun f => f.flow = flow).getLast? <;> rfl
    · rw [if_neg (Ne.symm h), List.filter_cons, if_neg (by rwa [decide_eq_true_eq])]

/-- To set flows concerns no tenant. -/
theorem Registry.tenants_setAll (r : Registry) (entries : List FlowEntry) :
    (entries.foldl setFlow r).extensions = r.extensions ∧ (entries.foldl setFlow r).isDown = r.isDown := by
  induction entries generalizing r with
  | nil => exact ⟨rfl, rfl⟩
  | cons entry rest ih => exact ih (r.setFlow entry)

/-- After the flows of a configuration were set, each flow has the fields that the configuration gives it. -/
theorem Registry.flows_setAll_builtIn (config : Config) (flow : Flow) :
    (config.flows.foldl setFlow builtIn).flows flow = some (Vocabulary.empty.registerAll (config.flowFields flow)) := by
  have builtIn_eq : Vocabulary.builtIn = Vocabulary.empty.registerAll Vocabulary.builtIn.entries := by decide
  rw [flows_setAll, Config.flowFields]
  split
  · rfl
  · exact congrArg some builtIn_eq

/-! ## Configurations -/

/-- A configuration sets the flows first and then takes the steps of its tenants. -/
theorem Registry.ofConfig_eq (config : Config) :
    ofConfig config = (config.flows.foldl setFlow builtIn).run config.tenants.steps := rfl

/-- A flow is served nothing for a tenant exactly if the tenant's entry says so: there is no flow without fields. -/
theorem Registry.unserved_ofConfig_iff {config : Config} {flow : Flow} {tenant : String} :
    (ofConfig config).isDown tenant = true ∨ (ofConfig config).flows flow = none ↔
      ∃ entry, config.tenants.get? tenant = some entry ∧ entry.isDown = true := by
  rw [ofConfig_eq, isDown_run, flows_run_eq_none_iff, flows_setAll_builtIn, (tenants_setAll builtIn config.flows).2,
    Tenants.unavailable_mem_steps]
  simp [builtIn, empty]

/-- The vocabulary of a flow for a tenant is that of the fields of the flow and, after them, those of the tenant. -/
theorem Registry.merge_ofConfig (config : Config) (flow : Flow) (tenant : String) :
    (((ofConfig config).flows flow).getD .empty).merge ((ofConfig config).extensions tenant flow) =
      .registerAll .empty (config.flowFields flow ++ config.tenantFields tenant flow) := by
  have noFields : (config.flows.foldl setFlow builtIn).extensions tenant flow = .empty := by
    rw [(tenants_setAll builtIn config.flows).1]
    rfl
  rw [ofConfig_eq, merge_run noFields, flows_setAll_builtIn, Option.getD_some, fieldsOf_tenants, tenantFieldsOf_tenants,
    List.nil_append, Vocabulary.registerAll_append]
  rfl

/-- What a configuration means, in three parts, for every flow and tenant and in whatever order the tenants are gone through.
1. There is no vocabulary exactly for the tenants whose entry says so.
2. Every other tenant has the fields of the flow, which are those of the last entry that names the flow or else the built-in
   ones, and after them the fields of its own entry: those for every flow, then those of each entry that names the flow.
3. A tenant without an entry has the fields of the flow and no others. -/
theorem Registry.lookup_ofConfig (config : Config) {order : Tenants} (reordered : order.toList.Perm config.tenants.toList)
    (flow : Flow) (tenant : String) :
    (∀ fault, (ofConfig ⟨config.flows, order⟩).lookup flow tenant = .error fault ↔
      fault = .unavailable flow tenant ∧ ∃ entry, config.tenants.get? tenant = some entry ∧ entry.isDown = true) ∧
    ((¬∃ entry, config.tenants.get? tenant = some entry ∧ entry.isDown = true) →
      (ofConfig ⟨config.flows, order⟩).lookup flow tenant =
        .ok (Vocabulary.empty.registerAll (config.flowFields flow ++ config.tenantFields tenant flow))) ∧
    (config.tenants.get? tenant = none → (ofConfig ⟨config.flows, order⟩).lookup flow tenant =
      .ok (Vocabulary.empty.registerAll (config.flowFields flow))) := by
  have sameEntry : order.get? tenant = config.tenants.get? tenant := Tenants.get?_of_perm reordered tenant
  have sameFields : Config.tenantFields ⟨config.flows, order⟩ tenant flow = config.tenantFields tenant flow := by
    rw [Config.tenantFields, Config.tenantFields, sameEntry]
  have unserved := @unserved_ofConfig_iff ⟨config.flows, order⟩ flow tenant
  have served := merge_ofConfig ⟨config.flows, order⟩ flow tenant
  rw [sameEntry] at unserved
  rw [sameFields] at served
  refine ⟨?_, ?_, ?_⟩
  · intro fault
    rw [lookup_eq_error_iff, unserved]
  · intro up
    exact lookup_eq_ok_iff.2 ⟨mt unserved.1 up, served.symm⟩
  · intro absent
    have up : ¬∃ entry, config.tenants.get? tenant = some entry ∧ entry.isDown = true := by
      rintro ⟨entry, present, -⟩
      rw [absent] at present
      cases present
    have bare : config.tenantFields tenant flow = [] := by rw [Config.tenantFields, absent]
    rw [bare, List.append_nil] at served
    exact lookup_eq_ok_iff.2 ⟨mt unserved.1 up, served.symm⟩

/-- The first entry of a flow that is listed twice counts for nothing, the fields of a tenant come after those of the flow, and
a tenant that is gone through earlier or later keeps what is its own. A flow that is not listed has the built-in fields, and
those of the tenant after them. -/
theorem Registry.lookup_ofConfig_repeated_flow :
    let acme : TenantEntry := ⟨false, [⟨"agent", [.equals]⟩],
      [⟨.preIssueAccessToken, [⟨"role", []⟩]⟩, ⟨.preIssueAccessToken, [⟨"role", [.oneOf]⟩, ⟨"agent", [.equals]⟩]⟩]⟩
    let tenants : Tenants := .ofList [("acme.com", acme), ("down.example", ⟨true, [], []⟩)]
    let order : Tenants := .ofList [("down.example", ⟨true, [], []⟩), ("acme.com", acme)]
    let config : Config := ⟨[⟨.preIssueAccessToken, [⟨"ip", [.equals]⟩]⟩, ⟨.preIssueAccessToken, [⟨"agent", [.contains]⟩]⟩],
      tenants⟩
    let lookup := (ofConfig ⟨config.flows, order⟩).lookup .preIssueAccessToken
    let unlisted := (ofConfig ⟨[], order⟩).lookup .preIssueAccessToken
    (∃ v, lookup "acme.com" = .ok v ∧ v.entries = [⟨"agent", [.contains, .equals]⟩, ⟨"role", [.oneOf]⟩]) ∧
      lookup "down.example" = .error (.unavailable .preIssueAccessToken "down.example") ∧
      (∃ v, lookup "carbon.super" = .ok v ∧ v.entries = [⟨"agent", [.contains]⟩]) ∧
      (∃ v, unlisted "carbon.super" = .ok v ∧
        v.entries = [⟨"application", [.equals, .notEquals]⟩, ⟨"grantType", [.equals, .notEquals]⟩]) ∧
      ∃ v, unlisted "acme.com" = .ok v ∧ v.entries = [⟨"application", [.equals, .notEquals]⟩,
        ⟨"grantType", [.equals, .notEquals]⟩, ⟨"agent", [.equals]⟩, ⟨"role", [.oneOf]⟩] := by
  intro acme tenants order config lookup unlisted
  have reordered : order.toList.Perm tenants.toList := by decide
  have up : ¬∃ entry, tenants.get? "acme.com" = some entry ∧ entry.isDown = true := by
    rintro ⟨entry, present, down⟩
    obtain rfl : acme = entry := Option.some.inj present
    cases down
  obtain ⟨-, served, -⟩ := lookup_ofConfig config reordered .preIssueAccessToken "acme.com"
  obtain ⟨unserved, -, -⟩ := lookup_ofConfig config reordered .preIssueAccessToken "down.example"
  obtain ⟨-, -, absent⟩ := lookup_ofConfig config reordered .preIssueAccessToken "carbon.super"
  obtain ⟨-, servedBuiltIn, -⟩ := lookup_ofConfig ⟨[], tenants⟩ reordered .preIssueAccessToken "acme.com"
  obtain ⟨-, -, absentBuiltIn⟩ := lookup_ofConfig ⟨[], tenants⟩ reordered .preIssueAccessToken "carbon.super"
  exact ⟨⟨_, served up, by decide⟩, (unserved _).2 ⟨rfl, _, rfl, rfl⟩, ⟨_, absent rfl, by decide⟩,
    ⟨_, absentBuiltIn rfl, by decide⟩, ⟨_, servedBuiltIn up, by decide⟩⟩

end GateRules
