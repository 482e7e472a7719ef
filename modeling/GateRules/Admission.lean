import GateRules.Builder
import GateRules.Refusal
import GateRules.Request.Json

/-!
# Admission

How a rule comes in, as a request, as JSON or in notation, and what is told on the way. To ask for no rule always
succeeds and looks nothing up. Otherwise the action has to have a flow, every term has to be an expression, a vocabulary
has to be served, and every expression has to be in it; the first of these that fails is the refusal.
-/

namespace GateRules

/-- A rule or the reason why there is none, with what was told on the way. -/
abbrev Admission := Logged (Except Refusal Rule)

/-- A refusal of which nothing is told. -/
def Admission.refuse (refusal : Refusal) : Admission := ⟨.error refusal, []⟩

/-- The rule built from these groups of expressions. -/
def Rule.ofExpressions (groups : List (List Expression)) (flow : Flow) (tenant : String) (serve : Lookup) : Admission :=
  let created := Builder.create serve flow tenant
  match created.result with
  | .error fault => ⟨.error (.noVocabulary fault), created.log ++ [.builderFailed fault.message flow tenant]⟩
  | .ok builder => match builder.follow (Builder.instructions groups) with
    | .error defect => ⟨.error (.invalid defect), created.log⟩
    | .ok builder =>
      let built := builder.build
      match built.result with
      | .error defect => ⟨.error (.invalid defect), created.log ++ built.log⟩
      | .ok body => ⟨.ok (.conditional body flow tenant), created.log ++ built.log⟩

/-- The rule that a draft of at least one group writes down. -/
def Rule.ofDraft (draft : Draft) (action : Action) (tenant : String) (serve : Lookup) : Admission :=
  match action.flow with
  | .error refusal => .refuse refusal
  | .ok flow => match draft.expressions with
    | .error defect => .refuse (.invalid defect)
    | .ok groups => Rule.ofExpressions groups flow tenant serve

/-- The rule that a request asks for. -/
def Rule.ofRequest (request : Request) (action : Action) (tenant : String) (serve : Lookup) : Admission :=
  match request.draft? with
  | none => ⟨.ok .unconditional, [.noRuleInRequest action tenant]⟩
  | some draft => Rule.ofDraft draft action tenant serve

/-- The rule that a text in JSON asks for. -/
def Rule.ofJson (text : String) (action : Action) (tenant : String) (serve : Lookup) : Admission :=
  match Request.ofJson text with
  | .error fault => .refuse (.malformed fault)
  | .ok request => Rule.ofRequest request action tenant serve

/-- The rule that a text in notation writes down. -/
def Rule.ofNotation (text : String) (action : Action) (tenant : String) (serve : Lookup) : Admission :=
  match Notation.read text with
  | .error misread => .refuse (.misread misread)
  | .ok [] => ⟨.ok .unconditional, [.noRuleInNotation action tenant]⟩
  | .ok draft => Rule.ofDraft draft action tenant serve

end GateRules
