import GateRules.Proofs.Encoding
import GateRules.Proofs.Growing

/-!
# What is told of a result

What is told on the way to a rule leaves nothing open: a result says what the events are, how much each of them matters, in
which words it is told and which values it carries, down to the counts, and no other events go with it (`Admission.Tells`). The
events come from five places and some of them before the result is known, so this is shown along the way to the rule, for a
draft first (`Rule.tells_ofDraft`) and from there for each form in which a draft comes in. That a result leaves its events no
choice is one function from results to lines (`Admission.linesOf`).
-/

namespace GateRules

/-! ## Counts -/

/-- A body has as many expressions as its groups have together. -/
theorem Body.expressionCount_eq (body : Body) : body.expressionCount = body.groups.flatten.length := by
  have counted : ∀ (clauses : List Clause) (start : Nat), clauses.foldl (fun count clause => count + clause.size) start =
      start + (clauses.map Clause.expressions).flatten.length := by
    intro clauses
    induction clauses with
    | nil =>
      intro start
      rfl
    | cons clause more ih =>
      intro start
      rw [List.foldl_cons, ih, List.map_cons, List.flatten_cons, List.length_append, Clause.size]
      omega
  rw [expressionCount, counted, Nat.zero_add, groups]

/-- The draft of a body has the groups of the body, and as many terms as they have expressions. -/
theorem Body.length_draft (body : Body) : body.draft.length = body.groups.length ∧
    body.draft.flatten.length = body.groups.flatten.length := by
  rw [draft_eq, List.length_map, ← List.map_flatten, List.length_map]
  exact ⟨rfl, rfl⟩

/-! ## Lines -/

/-- An event as it is written down: how much it matters, its words, and the values it carries by name. -/
structure Event.Line where
  level : Level
  message : String
  data : List (String × Datum)
deriving DecidableEq

/-- The line of an event. -/
def Event.line (event : Event) : Line := ⟨event.level, event.message, event.data⟩

/-- The line that no rule is asked for, in the given words. -/
def Event.Line.noRule (message : String) (action : Action) (tenant : String) : Line :=
  ⟨.debug, message, [("action_type", .text action.token), ("tenant", .text tenant)]⟩

/-- The line of a builder with a vocabulary. -/
def Event.Line.created (flow : Flow) (tenant : String) (fields : Nat) : Line :=
  ⟨.debug, "rule builder created", [("flow_type", .text flow.token), ("tenant", .text tenant), ("fields", .count fields)]⟩

/-- The line of a builder without a vocabulary. -/
def Event.Line.failed (error : String) (flow : Flow) (tenant : String) : Line :=
  ⟨.warn, "failed to initialize rule builder",
    [("error", .text error), ("flow_type", .text flow.token), ("tenant", .text tenant)]⟩

/-- The line of a rule that was built. -/
def Event.Line.built (flow : Flow) (tenant : String) (groups expressions : Nat) : Line :=
  ⟨.debug, "rule built", [("flow_type", .text flow.token), ("tenant", .text tenant), ("groups", .count groups),
    ("expressions", .count expressions)]⟩

/-- The lines of what is told on the way to a rule. -/
def Admission.lines (a : Admission) : List Event.Line := a.log.map Event.line

/-- What a text in JSON asks for, or why it asks for nothing. -/
def Request.askedInJson (text : String) : Except Refusal (Option Draft) :=
  match Request.ofJson text with
  | .error fault => .error (.malformed fault)
  | .ok request => .ok request.rules

/-- What a text in notation asks for, or why it asks for nothing. -/
def Notation.asked (text : String) : Except Refusal (Option Draft) :=
  match Notation.read text with
  | .error misread => .error (.misread misread)
  | .ok draft => .ok (some draft)

/-! ## Lines and results -/

/-- The lines that are told of a result, by what was asked for. That no rule is asked for is told by one line, in the given words.
A refusal from before the lookup is not told of at all. A missing vocabulary is told with the reason, a refusal for the
vocabulary with the number of fields that were looked up, and a rule with that number and with its groups and expressions, which
are as many as were asked for. -/
inductive Admission.Tells (words : String) (asked : Except Refusal (Option Draft)) (action : Action) (tenant : String)
    (serve : Lookup) : Except Refusal Rule → List Event.Line → Prop
  | noRule (nothing : asked = .ok none ∨ asked = .ok (some [])) :
      Tells words asked action tenant serve (.ok .unconditional) [.noRule words action tenant]
  | misread {misread : Notation.Misread} (unread : asked = .error (.misread misread)) :
      Tells words asked action tenant serve (.error (.misread misread)) []
  | malformed {fault : Json.Fault} (unread : asked = .error (.malformed fault)) :
      Tells words asked action tenant serve (.error (.malformed fault)) []
  | noFlow {draft : Draft} (rules : asked = .ok (some draft)) (full : draft ≠ []) (none : action.flow? = none) :
      Tells words asked action tenant serve (.error (.notImplemented action.token)) []
  | fault {draft : Draft} {defect : Defect} (rules : asked = .ok (some draft)) (why : draft.Fault defect) :
      Tells words asked action tenant serve (.error (.invalid defect)) []
  | noVocabulary {draft : Draft} {flow : Flow} {fault : RegistryFault} (rules : asked = .ok (some draft))
      (hasFlow : action.flow? = some flow) (unserved : serve flow tenant = .error fault) :
      Tells words asked action tenant serve (.error (.noVocabulary fault)) [.failed fault.message flow tenant]
  | outside {draft : Draft} {flow : Flow} {v : Vocabulary} {group index : Nat} {e : Expression} {source : Defect}
      (rules : asked = .ok (some draft)) (hasFlow : action.flow? = some flow) (served : serve flow tenant = .ok v)
      (why : v.Refuses flow e source) :
      Tells words asked action tenant serve (.error (.invalid (.atExpression group index source)))
        [.created flow tenant v.size]
  | admitted {draft : Draft} {flow : Flow} {v : Vocabulary} {body : Body} (rules : asked = .ok (some draft))
      (hasFlow : action.flow? = some flow) (served : serve flow tenant = .ok v)
      (groups : draft.length = body.groups.length) (expressions : draft.flatten.length = body.groups.flatten.length) :
      Tells words asked action tenant serve (.ok (.conditional body flow tenant))
        [.created flow tenant v.size, .built flow tenant body.groups.length body.groups.flatten.length]

/-- The line of the vocabulary that is looked up, if the action has a flow and a vocabulary is served. -/
def Admission.lookupLines (action : Action) (tenant : String) (serve : Lookup) : List Event.Line :=
  match action.flow? with
  | none => []
  | some flow => match serve flow tenant with
    | .error _ => []
    | .ok v => [.created flow tenant v.size]

/-- The lines that go with a result, whatever was asked for. -/
def Admission.linesOf (words : String) (action : Action) (tenant : String) (serve : Lookup) :
    Except Refusal Rule → List Event.Line
  | .ok .unconditional => [.noRule words action tenant]
  | .ok (.conditional body flow _) =>
    lookupLines action tenant serve ++ [.built flow tenant body.groups.length body.groups.flatten.length]
  | .error (.noVocabulary fault) => action.flow?.toList.map fun flow => .failed fault.message flow tenant
  | .error refusal => if refusal.isAfterLookup then lookupLines action tenant serve else []

section

variable {words : String} {asked : Except Refusal (Option Draft)} {action : Action} {tenant : String} {serve : Lookup}
  {result : Except Refusal Rule} {lines : List Event.Line}

/-- A vocabulary that is served is told of by one line, with the number of its fields. -/
theorem Admission.lookupLines_of_served {flow : Flow} {v : Vocabulary} (hasFlow : action.flow? = some flow)
    (served : serve flow tenant = .ok v) : lookupLines action tenant serve = [.created flow tenant v.size] := by
  simp only [lookupLines, hasFlow, served]

/-- A refusal from before the lookup goes with no line. -/
theorem Admission.linesOf_of_early {refusal : Refusal} (early : refusal.isAfterLookup = false) :
    linesOf words action tenant serve (.error refusal) = [] := by
  cases refusal with
  | noVocabulary fault => cases early
  | _ => simp only [linesOf, early, Bool.false_eq_true, if_false]

/-- What is told of a result are the lines that go with it, whatever was asked for. -/
theorem Admission.Tells.lines_eq (h : Tells words asked action tenant serve result lines) :
    lines = linesOf words action tenant serve result := by
  cases h with
  | noRule => rfl
  | misread | malformed | noFlow => exact (linesOf_of_early rfl).symm
  | fault _ why => exact (linesOf_of_early why.isAfterLookup).symm
  | noVocabulary _ hasFlow _ => simp only [linesOf, hasFlow, Option.toList_some, List.map_cons, List.map_nil]
  | outside _ hasFlow served why =>
    rw [← lookupLines_of_served hasFlow served]
    exact (if_pos why.isOutside).symm
  | admitted _ hasFlow served _ _ =>
    rw [linesOf, lookupLines_of_served hasFlow served]
    rfl

/-- A warning is told exactly of what the server is at fault for. -/
theorem Admission.Tells.warns_iff (h : Tells words asked action tenant serve result lines) :
    (∃ line ∈ lines, line.level = .warn) ↔ ∃ refusal, result = .error refusal ∧ refusal.kind = .server := by
  cases h <;> simp [Event.Line.noRule, Event.Line.created, Event.Line.failed, Event.Line.built, Refusal.kind]

end

/-! ## What is told of what comes in -/

/-- What is told of a draft with at least one group. -/
theorem Rule.tells_ofDraft {draft : Draft} (full : draft ≠ []) (words : String) (action : Action) (tenant : String)
    (serve : Lookup) : Admission.Tells words (.ok (some draft)) action tenant serve
      (ofDraft draft action tenant serve).result (ofDraft draft action tenant serve).lines := by
  cases hasFlow : action.flow? with
  | none =>
    rw [ofDraft, Action.flow_eq_of_none hasFlow]
    exact .noFlow rfl full hasFlow
  | some flow =>
    cases expressions : draft.expressions with
    | error defect =>
      have refused : ofDraft draft action tenant serve = .refuse (.invalid defect) := by
        simp only [ofDraft, Action.flow_eq_of_some hasFlow, expressions]
      rw [refused]
      exact .fault rfl (Draft.expressions_eq_error_iff.1 expressions)
    | ok groups =>
      obtain ⟨body, rfl, rfl⟩ := (Draft.expressions_eq_ok_iff_exists_body full).1 expressions
      rw [ofDraft_of_body hasFlow]
      cases served : serve flow tenant with
      | error fault =>
        rw [ofExpressions_of_unserved served]
        exact .noVocabulary rfl hasFlow served
      | ok v =>
        rw [ofExpressions_of_served served]
        cases objection : v.firstObjection? flow body.groups with
        | some defect =>
          obtain ⟨group, index, e, source, -, why, rfl⟩ := Vocabulary.firstObjection?_eq_some_iff.1 objection
          exact .outside rfl hasFlow served why
        | none =>
          rw [← body.length_groups, body.expressionCount_eq]
          exact .admitted rfl hasFlow served body.length_draft.1 body.length_draft.2

/-- What is told of a request, with its rules as what is asked for. -/
theorem Rule.tells_ofRequest (request : Request) (action : Action) (tenant : String) (serve : Lookup) :
    Admission.Tells "no rule in request" (.ok request.rules) action tenant serve
      (ofRequest request action tenant serve).result (ofRequest request action tenant serve).lines := by
  cases asked : request.draft? with
  | none =>
    simp only [ofRequest, asked]
    exact .noRule ((Request.draft?_eq_none_iff.1 asked).imp (congrArg _) (congrArg _))
  | some draft =>
    obtain ⟨rules, full⟩ := Request.draft?_eq_some_iff.1 asked
    rw [ofRequest_of_rules rules full, rules]
    exact tells_ofDraft full _ action tenant serve

/-- What is told of a text in JSON: nothing of one that cannot be read, and otherwise what is told of its request. -/
theorem Rule.tells_ofJson (text : String) (action : Action) (tenant : String) (serve : Lookup) :
    Admission.Tells "no rule in request" (Request.askedInJson text) action tenant serve
      (ofJson text action tenant serve).result (ofJson text action tenant serve).lines := by
  unfold ofJson Request.askedInJson
  cases Request.ofJson text with
  | error fault => exact .malformed rfl
  | ok request => exact tells_ofRequest request action tenant serve

/-- What is told of a text in notation: as of a request for its draft, in words of its own where there is no rule. -/
theorem Rule.tells_ofNotation (text : String) (action : Action) (tenant : String) (serve : Lookup) :
    Admission.Tells "no rule in notation" (Notation.asked text) action tenant serve
      (ofNotation text action tenant serve).result (ofNotation text action tenant serve).lines := by
  unfold Notation.asked
  cases read : Notation.read text with
  | error misread =>
    rw [ofNotation_of_misread read]
    exact .misread rfl
  | ok draft =>
    by_cases empty : draft = []
    · subst empty
      rw [ofNotation_of_nil read]
      exact .noRule (.inr rfl)
    · rw [ofNotation_of_groups read empty]
      exact tells_ofDraft empty _ action tenant serve

/-- Whether a warning is told. -/
def Admission.Warns (a : Admission) : Prop := ∃ line ∈ a.lines, line.level = .warn

/-- Whether there is no rule and the server is at fault. -/
def Admission.FailsAtServer (a : Admission) : Prop := ∃ refusal, a.result = .error refusal ∧ refusal.kind = .server

/-- What is told of a result, in four parts, for every action and tenant and whatever is served.
1. A request tells the lines that `Admission.Tells` has for its result, each with its level, its words and all its values, and
   it warns exactly of what the server is at fault for.
2. So does a text in JSON, where the rules of the request that it is read as are what is asked for.
3. So does a text in notation, where the draft that is read is what is asked for, in the words for notation.
4. The result leaves nothing open: the lines are a function of it, whatever was asked for. -/
theorem Rule.log_tells (action : Action) (tenant : String) (serve : Lookup) :
    (∀ request, Admission.Tells "no rule in request" (.ok request.rules) action tenant serve
        (ofRequest request action tenant serve).result (ofRequest request action tenant serve).lines ∧
      ((ofRequest request action tenant serve).Warns ↔ (ofRequest request action tenant serve).FailsAtServer)) ∧
    (∀ text, Admission.Tells "no rule in request" (Request.askedInJson text) action tenant serve
        (ofJson text action tenant serve).result (ofJson text action tenant serve).lines ∧
      ((ofJson text action tenant serve).Warns ↔ (ofJson text action tenant serve).FailsAtServer)) ∧
    (∀ text, Admission.Tells "no rule in notation" (Notation.asked text) action tenant serve
        (ofNotation text action tenant serve).result (ofNotation text action tenant serve).lines ∧
      ((ofNotation text action tenant serve).Warns ↔ (ofNotation text action tenant serve).FailsAtServer)) ∧
    (∀ words asked result lines, Admission.Tells words asked action tenant serve result lines →
      lines = Admission.linesOf words action tenant serve result) := by
  refine ⟨?_, ?_, ?_, ?_⟩
  · intro request
    have tells := tells_ofRequest request action tenant serve
    exact ⟨tells, tells.warns_iff⟩
  · intro text
    have tells := tells_ofJson text action tenant serve
    exact ⟨tells, tells.warns_iff⟩
  · intro text
    have tells := tells_ofNotation text action tenant serve
    exact ⟨tells, tells.warns_iff⟩
  · intro words asked result lines tells
    exact tells.lines_eq

/-- A request for two groups of three terms tells how many fields were looked up and how many groups and expressions the rule
has, and the text in notation for these groups tells the same. Where no vocabulary is served, the text in JSON for the request
warns, with the reason. -/
theorem Rule.log_tells_counts :
    let serve := (Registry.empty.run [.field .preIssueAccessToken ⟨"ip", [.equals]⟩]).lookup
    let a : Expression := ⟨"ip", .equals, "::1", by decide, by decide⟩
    let body : Body := ⟨[⟨[a, a], List.cons_ne_nil a [a]⟩, ⟨[a], List.cons_ne_nil a []⟩], List.cons_ne_nil _ _⟩
    let admission := ofRequest ⟨some body.draft⟩ .preIssueAccessToken "carbon.super" serve
    let read := ofNotation body.text .preIssueAccessToken "carbon.super" serve
    let unserved := ofJson (Request.toJson ⟨some body.draft⟩) .preIssueAccessToken "carbon.super" Registry.empty.lookup
    admission.result = .ok (.conditional body .preIssueAccessToken "carbon.super") ∧
      admission.lines = [
        ⟨.debug, "rule builder created",
          [("flow_type", .text "preIssueAccessToken"), ("tenant", .text "carbon.super"), ("fields", .count 1)]⟩,
        ⟨.debug, "rule built", [("flow_type", .text "preIssueAccessToken"), ("tenant", .text "carbon.super"),
          ("groups", .count 2), ("expressions", .count 3)]⟩] ∧
      read.result = admission.result ∧ read.lines = admission.lines ∧ ¬read.Warns ∧
      unserved.lines = [
        ⟨.warn, "failed to initialize rule builder",
          [("error", .text "rule vocabulary for flow 'preIssueAccessToken' is unavailable for tenant 'carbon.super'"),
            ("flow_type", .text "preIssueAccessToken"), ("tenant", .text "carbon.super")]⟩] ∧
      unserved.Warns := by
  intro serve a body admission read unserved
  obtain ⟨requests, -, texts, lines⟩ := log_tells .preIssueAccessToken "carbon.super" serve
  obtain ⟨-, inJson, -, lines'⟩ := log_tells .preIssueAccessToken "carbon.super" Registry.empty.lookup
  have admitted : admission.result = .ok (.conditional body .preIssueAccessToken "carbon.super") := by decide
  have same : read = admission := by
    simp only [read, admission]
    rw [ofNotation_of_groups body.read_text body.draft_ne_nil, ofRequest_of_rules rfl body.draft_ne_nil]
  have failed : unserved.result = .error (.noVocabulary (.unavailable .preIssueAccessToken "carbon.super")) := by
    simp only [unserved, ofJson, Request.ofJson_toJson]
    decide
  have quiet : ¬read.FailsAtServer := by
    rintro ⟨refusal, h, -⟩
    rw [same, admitted] at h
    cases h
  refine ⟨admitted, ?_, congrArg Logged.result same, congrArg Admission.lines same,
    fun warned => quiet ((texts body.text).2.1 warned), ?_, (inJson _).2.2 ⟨_, failed, rfl⟩⟩
  · rw [lines _ _ _ _ (requests ⟨some body.draft⟩).1, admitted]
    decide
  · rw [lines' _ _ _ _ (inJson _).1, failed]
    decide

end GateRules
