import GateRules.Registry

/-!
# What registering comes to

A registry keeps what is registered for a flow apart from what is registered for a tenant, and puts the two together only
when it is asked. That this cannot be seen from outside rests on one law: to merge what was registered is to register it
again, one after the other (`Vocabulary.merge_registerAll`). What a run of steps leaves behind is then read off the steps,
whatever their order was across flows and tenants.
-/

namespace GateRules

/-! ## Operators of one field -/

/-- What is mentioned once more is passed on as one mention. -/
theorem Operator.extend_insertLast (known more : List Operator) (operator : Operator) :
    extend known (insertLast more operator) = insertLast (extend known more) operator := by
  by_cases h : operator ∈ more
  · have known' : operator ∈ extend known more := mem_extend.2 (.inr h)
    rw [insertLast, if_pos h, insertLast, if_pos known']
  · rw [insertLast, if_neg h, extend_append]
    rfl

/-- To extend by what was extended is to extend twice. -/
theorem Operator.extend_extend (known a b : List Operator) : extend known (extend a b) = extend (extend known a) b := by
  induction b generalizing a with
  | nil => rfl
  | cons operator b ih =>
    calc extend known (extend a (operator :: b))
        = extend known (extend (insertLast a operator) b) := rfl
      _ = extend (extend known (insertLast a operator)) b := ih _
      _ = extend (insertLast (extend known a) operator) b := by rw [extend_insertLast]
      _ = extend (extend known a) (operator :: b) := rfl

/-! ## Entries -/

/-- It makes no difference if operators were collected before they are registered. -/
theorem Entry.register_extend_nil (name : String) (operators : List Operator) (entries : List Entry) :
    Entry.register ⟨name, Operator.extend [] operators⟩ entries = Entry.register ⟨name, operators⟩ entries := by
  have collected : ∀ known, Operator.extend known (Operator.extend [] operators) = Operator.extend known operators :=
    fun known => Operator.extend_extend known [] operators
  induction entries with
  | nil => simp only [register, collected]
  | cons e rest ih => simp only [register, collected, ih]

/-- To register a field twice is to register it once with the operators of both. -/
theorem Entry.register_register (name : String) (a b : List Operator) (entries : List Entry) :
    Entry.register ⟨name, b⟩ (Entry.register ⟨name, a⟩ entries) = Entry.register ⟨name, Operator.extend a b⟩ entries := by
  induction entries with
  | nil => simp [register, Operator.extend_extend]
  | cons e rest ih =>
    by_cases h : e.name = name
    · simp [register, h, Operator.extend_extend]
    · simp [register, h, ih]

/-- A known field stays where it is, so it may be registered before another field or after it. -/
theorem Entry.register_comm {a b : Entry} {entries : List Entry} (known : a.name ∈ entries.map Entry.name)
    (other : a.name ≠ b.name) : b.register (a.register entries) = a.register (b.register entries) := by
  induction entries with
  | nil => cases known
  | cons e rest ih =>
    by_cases ha : e.name = a.name
    · have hb : e.name ≠ b.name := fun hb => other (ha.symm.trans hb)
      simp [register, ha, ha ▸ hb]
    · have known' : a.name ∈ rest.map Entry.name := by
        rcases List.mem_cons.1 known with h | h
        · exact absurd h.symm ha
        · exact h
      by_cases hb : e.name = b.name
      · simp [register, hb, Ne.symm other]
      · simp [register, ha, hb, ih known']

/-- After an entry is registered its name is known, with those that were. -/
theorem Entry.mem_names_register_iff {name : String} {entry : Entry} {entries : List Entry} :
    name ∈ (entry.register entries).map Entry.name ↔ name ∈ entries.map Entry.name ∨ name = entry.name := by
  rw [names_register]
  split
  · rename_i known
    constructor
    · exact Or.inl
    · rintro (h | rfl)
      · exact h
      · exact known
  · rw [List.mem_append, List.mem_singleton]

/-! ## Vocabularies -/

theorem Vocabulary.registerAll_cons (v : Vocabulary) (entry : Entry) (entries : List Entry) :
    v.registerAll (entry :: entries) = (v.register entry).registerAll entries := rfl

/-- To register two lists is to register one after the other. -/
theorem Vocabulary.registerAll_append (v : Vocabulary) (a b : List Entry) :
    v.registerAll (a ++ b) = (v.registerAll a).registerAll b :=
  List.foldl_append

/-- A known field may be registered before some other fields or after them. -/
theorem Vocabulary.registerAll_register_comm {v : Vocabulary} {entry : Entry} {entries : List Entry}
    (known : entry.name ∈ v.entries.map Entry.name) (other : entry.name ∉ entries.map Entry.name) :
    (v.register entry).registerAll entries = (v.registerAll entries).register entry := by
  induction entries generalizing v with
  | nil => rfl
  | cons e rest ih =>
    rw [List.map_cons, List.mem_cons, not_or] at other
    have swap : (v.register entry).register e = (v.register e).register entry := by
      apply Vocabulary.ext
      simp only [entries_register]
      exact Entry.register_comm known other.1
    have known' : entry.name ∈ (v.register e).entries.map Entry.name := by
      rw [entries_register]
      exact Entry.mem_names_register_iff.2 (.inl known)
    rw [registerAll_cons, swap, ih known' other.2, registerAll_cons]

/-- A field that is registered twice is registered once with the operators of both. -/
theorem Vocabulary.register_register (v : Vocabulary) (a b : Entry) (h : a.name = b.name) :
    (v.register a).register b = v.register ⟨a.name, Operator.extend a.operators b.operators⟩ := by
  apply Vocabulary.ext
  simp only [entries_register]
  have twice := Entry.register_register a.name a.operators b.operators v.entries
  rwa [show (⟨a.name, b.operators⟩ : Entry) = b by rw [h]] at twice

/-- The fields after a call are those before it and the one that is called for. -/
theorem Vocabulary.mem_names_register_iff {v : Vocabulary} {entry : Entry} {name : String} :
    name ∈ (v.register entry).entries.map Entry.name ↔ name ∈ v.entries.map Entry.name ∨ name = entry.name := by
  rw [entries_register, Entry.mem_names_register_iff]

/-- Entries that a field was registered among are registered like the entries and the field after them. -/
theorem Vocabulary.registerAll_register (v : Vocabulary) (entry : Entry) {entries : List Entry}
    (nodup : (entries.map Entry.name).Nodup) :
    v.registerAll (entry.register entries) = (v.registerAll entries).register entry := by
  induction entries generalizing v with
  | nil =>
    have collected := Entry.register_extend_nil entry.name entry.operators v.entries
    rw [← entries_register, ← entries_register] at collected
    exact Vocabulary.ext collected
  | cons e rest ih =>
    rw [List.map_cons, List.nodup_cons] at nodup
    by_cases h : e.name = entry.name
    · have known : entry.name ∈ (v.register e).entries.map Entry.name := mem_names_register_iff.2 (.inr h.symm)
      rw [Entry.register, if_pos h, registerAll_cons, ← v.register_register e entry h,
        registerAll_register_comm known (h ▸ nodup.1), registerAll_cons]
    · rw [Entry.register, if_neg h, registerAll_cons, ih (v.register e) nodup.2, registerAll_cons]

theorem Vocabulary.merge_empty (v : Vocabulary) : v.merge empty = v := rfl

/-- To merge a vocabulary that a field was registered in is to merge it and then register the field. -/
theorem Vocabulary.merge_register (v w : Vocabulary) (entry : Entry) :
    v.merge (w.register entry) = (v.merge w).register entry := by
  rw [merge, entries_register]
  exact v.registerAll_register entry w.names_nodup

/-- To merge what was registered is to register it. -/
theorem Vocabulary.merge_registerAll (v w : Vocabulary) (entries : List Entry) :
    v.merge (w.registerAll entries) = (v.merge w).registerAll entries := by
  induction entries generalizing w with
  | nil => rfl
  | cons e rest ih => rw [registerAll_cons, ih, merge_register, registerAll_cons]

/-! ## Runs of steps -/

/-- The field that a step registers for a flow, for all tenants. -/
def Registry.Step.field? (flow : Flow) : Step → Option Entry
  | .field f entry => if f = flow then some entry else none
  | .tenantField .. | .unavailable _ => none

/-- The field that a step registers for a flow, for one tenant only. -/
def Registry.Step.tenantField? (tenant : String) (flow : Flow) : Step → Option Entry
  | .tenantField t f entry => if t = tenant ∧ f = flow then some entry else none
  | .field .. | .unavailable _ => none

/-- The fields that steps register for a flow, for all tenants, in the order of the steps. -/
def Registry.fieldsOf (flow : Flow) (steps : List Step) : List Entry := steps.filterMap (Step.field? flow)

/-- The fields that steps register for a flow, for one tenant only, in the order of the steps. -/
def Registry.tenantFieldsOf (tenant : String) (flow : Flow) (steps : List Step) : List Entry :=
  steps.filterMap (Step.tenantField? tenant flow)

theorem Registry.Step.field?_eq_some_iff {flow : Flow} {s : Step} {entry : Entry} :
    s.field? flow = some entry ↔ s = .field flow entry := by
  cases s with
  | field f e =>
    simp only [field?, Option.ite_none_right_eq_some, Option.some.injEq, Step.field.injEq]
  | tenantField t f e => simp [field?]
  | unavailable t => simp [field?]

/-- Steps register nothing for a flow exactly when none of them names the flow and no tenant. -/
theorem Registry.fieldsOf_eq_nil_iff {flow : Flow} {steps : List Step} :
    fieldsOf flow steps = [] ↔ ∀ entry, .field flow entry ∉ steps := by
  rw [fieldsOf, List.filterMap_eq_nil_iff]
  constructor
  · intro h entry hs
    exact nomatch (h _ hs).symm.trans (Step.field?_eq_some_iff.2 rfl)
  · intro h s hs
    rw [Option.eq_none_iff_forall_not_mem]
    intro entry he
    exact h entry (Step.field?_eq_some_iff.1 he ▸ hs)

theorem Registry.run_cons (r : Registry) (s : Step) (steps : List Step) :
    r.run (s :: steps) = (r.apply s).run steps := rfl

/-- What a step does to the vocabulary of a flow. -/
theorem Registry.flows_apply (r : Registry) (s : Step) (flow : Flow) :
    (r.apply s).flows flow = match s.field? flow with
      | none => r.flows flow
      | some entry => some (((r.flows flow).getD .empty).register entry) := by
  cases s with
  | field f entry =>
    by_cases h : f = flow
    · subst h
      simp [apply, Step.field?]
    · rw [Step.field?, if_neg h]
      exact if_neg (Ne.symm h)
  | tenantField t f entry => rfl
  | unavailable t => rfl

/-- What a step does to the fields of a tenant. -/
theorem Registry.extensions_apply (r : Registry) (s : Step) (tenant : String) (flow : Flow) :
    (r.apply s).extensions tenant flow = match s.tenantField? tenant flow with
      | none => r.extensions tenant flow
      | some entry => (r.extensions tenant flow).register entry := by
  cases s with
  | field f entry => rfl
  | tenantField t f entry =>
    by_cases h : t = tenant ∧ f = flow
    · obtain ⟨rfl, rfl⟩ := h
      simp [apply, Step.tenantField?]
    · rw [Step.tenantField?, if_neg h]
      exact if_neg fun h' => h ⟨h'.1.symm, h'.2.symm⟩
  | unavailable t => rfl

/-- What a step does to the tenants that are served nothing. -/
theorem Registry.isDown_apply (r : Registry) (s : Step) (tenant : String) :
    (r.apply s).isDown tenant = true ↔ r.isDown tenant = true ∨ .unavailable tenant = s := by
  cases s with
  | field f entry => simp [apply]
  | tenantField t f entry => simp [apply]
  | unavailable t => simp [apply, or_comm]

/-- A run leaves a flow without a vocabulary exactly when it had none and none of the steps gave it one. -/
theorem Registry.flows_run_eq_none_iff (r : Registry) (steps : List Step) (flow : Flow) :
    (r.run steps).flows flow = none ↔ r.flows flow = none ∧ fieldsOf flow steps = [] := by
  induction steps generalizing r with
  | nil => simp [run, fieldsOf]
  | cons s steps ih =>
    rw [run_cons, ih, flows_apply, fieldsOf, fieldsOf, List.filterMap_cons]
    cases s.field? flow <;> simp

/-- A run registers for a flow what its steps do, in their order. -/
theorem Registry.getD_flows_run (r : Registry) (steps : List Step) (flow : Flow) :
    ((r.run steps).flows flow).getD .empty = ((r.flows flow).getD .empty).registerAll (fieldsOf flow steps) := by
  induction steps generalizing r with
  | nil => rfl
  | cons s steps ih =>
    rw [run_cons, ih, flows_apply, fieldsOf, fieldsOf, List.filterMap_cons]
    cases s.field? flow <;> rfl

/-- A run registers for a tenant what its steps do, in their order. -/
theorem Registry.extensions_run (r : Registry) (steps : List Step) (tenant : String) (flow : Flow) :
    (r.run steps).extensions tenant flow = (r.extensions tenant flow).registerAll (tenantFieldsOf tenant flow steps) := by
  induction steps generalizing r with
  | nil => rfl
  | cons s steps ih =>
    rw [run_cons, ih, extensions_apply, tenantFieldsOf, tenantFieldsOf, List.filterMap_cons]
    cases s.tenantField? tenant flow <;> rfl

/-- A tenant is served nothing after a run exactly when that was so before or a step of the run said so. -/
theorem Registry.isDown_run (r : Registry) (steps : List Step) (tenant : String) :
    (r.run steps).isDown tenant = true ↔ r.isDown tenant = true ∨ .unavailable tenant ∈ steps := by
  induction steps generalizing r with
  | nil => simp [run]
  | cons s steps ih => rw [run_cons, ih, isDown_apply, List.mem_cons, or_assoc]

/-! ## What is answered -/

/-- No vocabulary is served exactly if the tenant is down or the flow has no fields, and both are told alike. -/
theorem Registry.lookup_eq_error_iff {r : Registry} {flow : Flow} {tenant : String} {fault : RegistryFault} :
    r.lookup flow tenant = .error fault ↔
      fault = .unavailable flow tenant ∧ (r.isDown tenant = true ∨ r.flows flow = none) := by
  unfold lookup
  cases r.isDown tenant with
  | true => simp [eq_comm]
  | false => cases r.flows flow <;> simp [eq_comm]

/-- The vocabulary that is served is that of the flow merged with that of the tenant. -/
theorem Registry.lookup_eq_ok_iff {r : Registry} {flow : Flow} {tenant : String} {v : Vocabulary} :
    r.lookup flow tenant = .ok v ↔ ¬(r.isDown tenant = true ∨ r.flows flow = none) ∧
      v = ((r.flows flow).getD .empty).merge (r.extensions tenant flow) := by
  unfold lookup
  cases r.isDown tenant with
  | true => simp
  | false => cases r.flows flow <;> simp [eq_comm]

/-- The vocabulary that a run leaves for a tenant that had no fields of its own is what was registered for the flow and,
after all of it, what was registered for the tenant. -/
theorem Registry.merge_run {r : Registry} {tenant : String} {flow : Flow} (noFields : r.extensions tenant flow = .empty)
    (steps : List Step) :
    (((r.run steps).flows flow).getD .empty).merge ((r.run steps).extensions tenant flow) =
      ((r.flows flow).getD .empty).registerAll (fieldsOf flow steps ++ tenantFieldsOf tenant flow steps) := by
  rw [getD_flows_run, extensions_run, noFields, Vocabulary.merge_registerAll, Vocabulary.merge_empty,
    Vocabulary.registerAll_append]

/-- What a registry answers after any run of steps, in two parts, for every flow and tenant.
1. A registry that started with the built-in fields has no vocabulary exactly for the tenants that some step, early or late,
   made unavailable. Otherwise it answers the built-in fields with what the steps registered for the flow and, after all of
   that, with what they registered for the tenant in the flow.
2. A registry that started with nothing has no vocabulary for these tenants, nor for a flow that no step named for all
   tenants, whatever was registered for single tenants. Otherwise it answers what the steps registered, in the same order. -/
theorem Registry.lookup_run (steps : List Step) (flow : Flow) (tenant : String) :
    ((∀ fault, (builtIn.run steps).lookup flow tenant = .error fault ↔
        fault = .unavailable flow tenant ∧ .unavailable tenant ∈ steps) ∧
      (∀ v, (builtIn.run steps).lookup flow tenant = .ok v ↔ .unavailable tenant ∉ steps ∧
        v = Vocabulary.builtIn.registerAll (fieldsOf flow steps ++ tenantFieldsOf tenant flow steps))) ∧
    ((∀ fault, (empty.run steps).lookup flow tenant = .error fault ↔
        fault = .unavailable flow tenant ∧ (.unavailable tenant ∈ steps ∨ ∀ entry, .field flow entry ∉ steps)) ∧
      (∀ v, (empty.run steps).lookup flow tenant = .ok v ↔
        ¬(.unavailable tenant ∈ steps ∨ ∀ entry, .field flow entry ∉ steps) ∧
        v = Vocabulary.empty.registerAll (fieldsOf flow steps ++ tenantFieldsOf tenant flow steps))) := by
  have unservedBuiltIn : (builtIn.run steps).isDown tenant = true ∨ (builtIn.run steps).flows flow = none ↔
      .unavailable tenant ∈ steps := by
    rw [isDown_run, flows_run_eq_none_iff]
    simp [builtIn, empty]
  have unservedEmpty : (empty.run steps).isDown tenant = true ∨ (empty.run steps).flows flow = none ↔
      .unavailable tenant ∈ steps ∨ ∀ entry, .field flow entry ∉ steps := by
    rw [isDown_run, flows_run_eq_none_iff, fieldsOf_eq_nil_iff]
    simp [empty]
  refine ⟨⟨?_, ?_⟩, ⟨?_, ?_⟩⟩
  · intro fault
    rw [lookup_eq_error_iff, unservedBuiltIn]
  · intro v
    rw [lookup_eq_ok_iff, unservedBuiltIn, merge_run (r := builtIn) rfl]
    rfl
  · intro fault
    rw [lookup_eq_error_iff, unservedEmpty]
  · intro v
    rw [lookup_eq_ok_iff, unservedEmpty, merge_run (r := empty) rfl]
    rfl

/-- What a tenant was given first still comes after what is registered later for all tenants, a field without operators is
known, and a tenant that is down does not concern another. -/
theorem Registry.lookup_run_tenant_first :
    let steps : List Step := [.tenantField "acme.com" .preIssueAccessToken ⟨"application", [.contains, .equals]⟩,
      .unavailable "down.example", .field .preIssueAccessToken ⟨"application", [.oneOf]⟩,
      .field .preIssueAccessToken ⟨"riskScore", []⟩]
    ∃ v, (builtIn.run steps).lookup .preIssueAccessToken "acme.com" = .ok v ∧
      v.entries = [⟨"application", [.equals, .notEquals, .oneOf, .contains]⟩, ⟨"grantType", [.equals, .notEquals]⟩,
        ⟨"riskScore", []⟩] := by
  intro steps
  obtain ⟨⟨-, served⟩, -⟩ := lookup_run steps .preIssueAccessToken "acme.com"
  exact ⟨_, (served _).2 ⟨by decide, rfl⟩, by decide⟩

end GateRules
