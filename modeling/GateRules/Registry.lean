import GateRules.Vocabulary

/-!
# Registries

A registry answers which vocabulary rules of a flow may use for a tenant. It keeps a vocabulary per flow, fields that
extend a flow for one tenant only, and the tenants that are served nothing. A registry grows by steps, and no step takes
back what another has done.
-/

namespace GateRules

/-- What happened to a file that was to be read as text. -/
inductive FileFault where
  /-- There is no such file. -/
  | notFound
  /-- The bytes of the file are no text. -/
  | notText
  /-- Something else, in words of its own. -/
  | other (text : String)
deriving DecidableEq

/-- Why a registry, or a vocabulary of it, cannot be had. -/
inductive RegistryFault where
  /-- There is no vocabulary of this flow for this tenant. -/
  | unavailable (flow : Flow) (tenant : String)
  /-- The configuration is not valid, for a reason in words. -/
  | config (text : String)
  /-- The configuration cannot be read from its file. -/
  | file (fault : FileFault)
deriving DecidableEq

/-- The message about a file. -/
def FileFault.message : FileFault → String
  | .notFound => "No such file or directory (os error 2)"
  | .notText => "stream did not contain valid UTF-8"
  | .other text => text

/-- The message about a registry; one about a file is passed on as it is. -/
def RegistryFault.message : RegistryFault → String
  | .unavailable flow tenant =>
    "rule vocabulary for flow '" ++ flow.token ++ "' is unavailable for tenant '" ++ tenant ++ "'"
  | .config text => "invalid registry configuration: " ++ text
  | .file fault => fault.message

/-- Anything that can be asked for the vocabulary of a flow for a tenant. -/
abbrev Lookup := Flow → String → Except RegistryFault Vocabulary

/-- Vocabularies of flows, extensions of them for single tenants, and tenants that are served nothing. -/
structure Registry where
  flows : Flow → Option Vocabulary
  extensions : String → Flow → Vocabulary
  isDown : String → Bool

/-- The registry that serves nothing. -/
def Registry.empty : Registry := ⟨fun _ => none, fun _ _ => .empty, fun _ => false⟩

/-- The fields that every flow has unless it is configured otherwise. -/
def Vocabulary.builtIn : Vocabulary :=
  empty.registerAll [⟨"application", [.equals, .notEquals]⟩, ⟨"grantType", [.equals, .notEquals]⟩]

/-- The registry that serves the built-in fields. -/
def Registry.builtIn : Registry := { Registry.empty with flows := fun _ => some .builtIn }

/-- A change of a registry. -/
inductive Registry.Step where
  /-- A field of a flow, for all tenants. -/
  | field (flow : Flow) (entry : Entry)
  /-- A field of a flow, for one tenant. -/
  | tenantField (tenant : String) (flow : Flow) (entry : Entry)
  /-- A tenant is served nothing from now on. -/
  | unavailable (tenant : String)
deriving DecidableEq

/-- The registry after one step. -/
def Registry.apply (r : Registry) : Step → Registry
  | .field flow entry =>
    { r with flows := fun f =>
        if f = flow then some (((r.flows f).getD .empty).register entry) else r.flows f }
  | .tenantField tenant flow entry =>
    { r with extensions := fun t f =>
        if t = tenant ∧ f = flow then (r.extensions t f).register entry else r.extensions t f }
  | .unavailable tenant => { r with isDown := fun t => t = tenant || r.isDown t }

/-- The registry after some steps. -/
def Registry.run (r : Registry) (steps : List Step) : Registry := steps.foldl apply r

/-- The vocabulary of a flow for a tenant: that of the flow, extended by what the tenant has of its own. -/
def Registry.lookup (r : Registry) : Lookup := fun flow tenant =>
  if r.isDown tenant then .error (.unavailable flow tenant)
  else match r.flows flow with
    | none => .error (.unavailable flow tenant)
    | some v => .ok (v.merge (r.extensions tenant flow))

end GateRules
