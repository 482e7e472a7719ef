import GateRules.Registry

/-!
# Registry configurations

A configuration overrides the built-in vocabularies. A flow that is listed has the fields of its last entry and no
others. A tenant may be served nothing, extend every flow, or extend single flows.
-/

namespace GateRules

/-- The fields of a flow. -/
structure FlowEntry where
  flow : Flow
  fields : List Entry
deriving DecidableEq

/-- What is particular to one tenant: whether it is served nothing, fields that extend every flow, and fields that
extend single flows. -/
structure TenantEntry where
  isDown : Bool
  fields : List Entry
  flows : List FlowEntry
deriving DecidableEq

/-- Tenants by name, each name once. -/
structure Tenants where
  toList : List (String × TenantEntry)
  nodup : (toList.map Prod.fst).Nodup
deriving DecidableEq

/-- No tenants. -/
def Tenants.empty : Tenants := ⟨[], by simp⟩

/-- A tenant takes the place of one of the same name. -/
def Tenants.insert (tenants : Tenants) (name : String) (entry : TenantEntry) : Tenants where
  toList := tenants.toList.filter (fun t => t.1 ≠ name) ++ [(name, entry)]
  nodup := by
    rw [List.map_append, List.nodup_append]
    refine ⟨tenants.nodup.sublist (List.filter_sublist.map _), by simp, ?_⟩
    simp only [List.mem_map, List.mem_filter, List.map_cons, List.map_nil, List.mem_singleton]
    rintro _ ⟨t, ht, rfl⟩ _ rfl
    simpa using ht.2

/-- The tenants of a list; of two with one name the later stays. -/
def Tenants.ofList (entries : List (String × TenantEntry)) : Tenants :=
  entries.foldl (fun tenants (name, entry) => tenants.insert name entry) .empty

/-- What is particular to the tenant of this name. -/
def Tenants.get? (tenants : Tenants) (name : String) : Option TenantEntry :=
  (tenants.toList.find? fun t => t.1 = name).map Prod.snd

/-- A configuration of a registry. -/
structure Config where
  flows : List FlowEntry
  tenants : Tenants
deriving DecidableEq

/-- The steps a tenant's entry asks for. -/
def TenantEntry.steps (name : String) (entry : TenantEntry) : List Registry.Step :=
  (if entry.isDown then [.unavailable name] else []) ++
    entry.fields.flatMap (fun field => Flow.all.map fun flow => .tenantField name flow field) ++
    entry.flows.flatMap fun f => f.fields.map fun field => .tenantField name f.flow field

/-- A flow has the fields that are listed and no others. -/
def Registry.setFlow (r : Registry) (entry : FlowEntry) : Registry :=
  { r with flows := fun f => if f = entry.flow then some (Vocabulary.empty.registerAll entry.fields) else r.flows f }

/-- The registry that a configuration describes. -/
def Registry.ofConfig (config : Config) : Registry :=
  (config.flows.foldl setFlow .builtIn).run (config.tenants.toList.flatMap fun (name, entry) => entry.steps name)

end GateRules
