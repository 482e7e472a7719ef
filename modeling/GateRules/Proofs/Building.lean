import GateRules.Proofs.Places

/-!
# What a builder builds

A stream of instructions falls into segments at its OR conditions. A builder that still has instructions to follow is to
have its closed groups, then the open one with what is added to it, then the groups after that; following an instruction
never changes these (`Builder.pending_follow`). From this it follows which OR conditions fail and what is finished.
-/

namespace GateRules

/-! ## Segments -/

/-- The expressions between the OR conditions of a stream: one segment more than there are OR conditions. -/
def Builder.segments : List Instruction → List (List Expression)
  | [] => [[]]
  | .add e :: rest => (segments rest).modifyHead (e :: ·)
  | .or :: rest => [] :: segments rest

/-- There is always a first segment. -/
theorem Builder.exists_segments_eq_cons (stream : List Instruction) :
    ∃ first more, segments stream = first :: more := by
  induction stream with
  | nil => exact ⟨[], [], rfl⟩
  | cons i rest ih =>
    obtain ⟨first, more, hs⟩ := ih
    cases i with
    | add e => exact ⟨e :: first, more, by rw [segments, hs, List.modifyHead_cons]⟩
    | or => exact ⟨[], first :: more, by rw [segments, hs]⟩

/-- A stream has one segment more than it has OR conditions. -/
theorem Builder.length_segments (stream : List Instruction) :
    (segments stream).length = stream.count .or + 1 := by
  induction stream with
  | nil => rfl
  | cons i rest ih => cases i <;> simp [segments, ih]

/-- The instructions for the segments of a stream are the stream. -/
theorem Builder.instructions_segments (stream : List Instruction) : instructions (segments stream) = stream := by
  induction stream with
  | nil => rfl
  | cons i rest ih =>
    obtain ⟨first, more, hs⟩ := exists_segments_eq_cons rest
    rw [hs] at ih
    cases i with
    | add e =>
      rw [segments, hs, List.modifyHead_cons]
      cases more <;> simp_all [instructions]
    | or => simp_all [segments, instructions]

/-- Expressions that are added first go in front of the first segment. -/
theorem Builder.segments_adds_append (group : List Expression) (rest : List Instruction) :
    segments (group.map .add ++ rest) = (segments rest).modifyHead (group ++ ·) := by
  obtain ⟨first, more, hs⟩ := exists_segments_eq_cons rest
  induction group with
  | nil => simp [hs]
  | cons e group ih =>
    rw [List.map_cons, List.cons_append, segments, ih, hs]
    rfl

/-- The segments of the instructions for groups are the groups. -/
theorem Builder.segments_instructions {groups : List (List Expression)} (h : groups ≠ []) :
    segments (instructions groups) = groups := by
  induction groups with
  | nil => exact absurd rfl h
  | cons group more ih =>
    cases more with
    | nil =>
      have := segments_adds_append group []
      rw [List.append_nil] at this
      simp [instructions, this, segments]
    | cons next more =>
      have step : instructions (group :: next :: more) =
          group.map Instruction.add ++ .or :: instructions (next :: more) := by
        simp [instructions, List.intercalate_cons_cons]
      rw [step, segments_adds_append, segments, ih (List.cons_ne_nil next more), List.modifyHead_cons, List.append_nil]

/-- Only the stream without instructions has a single segment that is empty. -/
theorem Builder.segments_eq_singleton_nil_iff {stream : List Instruction} : segments stream = [[]] ↔ stream = [] := by
  constructor
  · intro h
    rw [← instructions_segments stream, h]
    rfl
  · rintro rfl
    rfl

/-! ## Groups that are still to come -/

/-- The groups of a builder once it has followed a stream: the closed ones, then the open one, which the stream goes on
with. -/
def Builder.pending (b : Builder) (stream : List Instruction) : List (List Expression) :=
  b.closed.map Clause.expressions ++ (segments stream).modifyHead (b.opened ++ ·)

theorem Builder.pending_nil (b : Builder) : b.pending [] = b.closed.map Clause.expressions ++ [b.opened] := by
  simp [pending, segments]

theorem Builder.pending_add (b : Builder) (e : Expression) (rest : List Instruction) :
    b.pending (.add e :: rest) = (b.add e).pending rest := by
  obtain ⟨first, more, hs⟩ := exists_segments_eq_cons rest
  simp [pending, segments, add, hs]

/-- An OR condition makes the open group one of the pending segments, whatever is in it. -/
theorem Builder.pending_or (b : Builder) (rest : List Instruction) :
    b.pending (.or :: rest) = b.closed.map Clause.expressions ++ b.opened :: segments rest := by
  simp [pending, segments]

/-- An OR condition succeeds exactly when the open group is not empty, and then it only moves that group. -/
theorem Builder.or_eq_ok_iff {b b' : Builder} : b.or = .ok b' ↔
    ∃ h : b.opened ≠ [], b' = { b with closed := b.closed ++ [⟨b.opened, h⟩], opened := [] } := by
  unfold Builder.or
  split
  · rename_i h
    constructor
    · intro ho
      exact ⟨h, (Except.ok.inj ho).symm⟩
    · rintro ⟨-, rfl⟩
      rfl
  · rename_i h
    simp [h]

/-- An OR condition fails only if the open group is empty, and names that group. -/
theorem Builder.or_eq_error_iff {b : Builder} {defect : Defect} :
    b.or = .error defect ↔ b.opened = [] ∧ defect = .danglingOr b.closed.length := by
  unfold Builder.or
  split
  · rename_i h
    simp [h]
  · rename_i h
    rw [Classical.not_not] at h
    simp [h, eq_comm]

/-- Before anything is done, the groups to come are the segments of the stream. -/
theorem Builder.pending_of_fresh {b : Builder} (opened : b.opened = []) (closed : b.closed = [])
    (stream : List Instruction) : b.pending stream = segments stream := by
  obtain ⟨first, more, hs⟩ := exists_segments_eq_cons stream
  simp [pending, opened, closed, hs]

/-- What an OR condition moves stays where it was among the groups to come. -/
theorem Builder.pending_of_or {b b' : Builder} (h : b.or = .ok b') (rest : List Instruction) :
    b.pending (.or :: rest) = b'.pending rest := by
  obtain ⟨hne, rfl⟩ := or_eq_ok_iff.1 h
  obtain ⟨first, more, hs⟩ := exists_segments_eq_cons rest
  simp [pending, segments, hs]

/-! ## Following a stream -/

/-- The groups to come are the same before and after a stream is followed. -/
theorem Builder.pending_follow {b b' : Builder} {stream : List Instruction} (h : b.follow stream = .ok b')
    (rest : List Instruction) : b'.pending rest = b.pending (stream ++ rest) := by
  fun_induction b.follow stream with
  | case1 b =>
    cases h
    rfl
  | case2 b e stream ih => rw [ih h, List.cons_append, pending_add]
  | case3 b stream defect ho => cases h
  | case4 b stream after ho ih => rw [ih h, List.cons_append, pending_of_or ho]

/-- To follow a stream closes one group for each OR condition. -/
theorem Builder.length_closed_follow {b b' : Builder} {stream : List Instruction} (h : b.follow stream = .ok b') :
    b'.closed.length = b.closed.length + stream.count .or := by
  fun_induction b.follow stream with
  | case1 b =>
    cases h
    rfl
  | case2 b e stream ih => simpa [Builder.add] using ih h
  | case3 b stream defect ho => cases h
  | case4 b stream after ho ih =>
    obtain ⟨hne, rfl⟩ := or_eq_ok_iff.1 ho
    rw [ih h, List.length_append, List.length_singleton, List.count_cons_self]
    omega

/-- To follow a stream changes neither the flow, nor the tenant, nor the vocabulary. -/
theorem Builder.scope_follow {b b' : Builder} {stream : List Instruction} (h : b.follow stream = .ok b') :
    b'.flow = b.flow ∧ b'.tenant = b.tenant ∧ b'.vocabulary = b.vocabulary := by
  fun_induction b.follow stream with
  | case1 b =>
    cases h
    exact ⟨rfl, rfl, rfl⟩
  | case2 b e stream ih => exact ih h
  | case3 b stream defect ho => cases h
  | case4 b stream after ho ih =>
    obtain ⟨hne, rfl⟩ := or_eq_ok_iff.1 ho
    exact ih h

/-- No closed group is empty. -/
theorem Builder.closed_getElem?_ne_nil (b : Builder) (more : List (List Expression)) {j : Nat} (hj : j < b.closed.length) :
    (b.closed.map Clause.expressions ++ more)[j]? ≠ some [] := by
  intro hn
  rw [List.getElem?_append_left (by simpa using hj), List.getElem?_map] at hn
  obtain ⟨clause, -, hc⟩ := Option.map_eq_some_iff.1 hn
  exact clause.expressions_ne_nil hc

/-- A stream fails exactly at an OR condition that closes an empty group, and it fails at the first of them. -/
theorem Builder.follow_eq_error_iff {b : Builder} {stream : List Instruction} {defect : Defect} :
    b.follow stream = .error defect ↔ ∃ k, k + 1 < (b.pending stream).length ∧ (b.pending stream)[k]? = some [] ∧
      (∀ j < k, (b.pending stream)[j]? ≠ some []) ∧ defect = .danglingOr k := by
  fun_induction b.follow stream with
  | case1 b =>
    constructor
    · intro h
      cases h
    · rintro ⟨k, hk, here, -, -⟩
      rw [pending_nil] at hk here
      exact absurd here (b.closed_getElem?_ne_nil _ (by simpa using hk))
  | case2 b e stream ih =>
    rw [pending_add]
    exact ih
  | case3 b stream error ho =>
    obtain ⟨hopened, rfl⟩ := or_eq_error_iff.1 ho
    have here : (b.pending (.or :: stream))[b.closed.length]? = some [] := by
      simp [pending_or, hopened]
    constructor
    · intro h
      cases h
      refine ⟨b.closed.length, ?_, here, ?_, rfl⟩
      · simp [pending_or, length_segments]
      · intro j hj
        rw [pending_or]
        exact b.closed_getElem?_ne_nil _ hj
    · rintro ⟨k, hk, hn, first, rfl⟩
      -- the first empty group is the open one, since no closed group is empty
      have notBefore : ¬k < b.closed.length := fun hlt => b.closed_getElem?_ne_nil _ hlt (pending_or b stream ▸ hn)
      have notAfter : ¬b.closed.length < k := fun hlt => first _ hlt here
      obtain rfl : k = b.closed.length := by omega
      rfl
  | case4 b stream after ho ih =>
    rw [pending_of_or ho]
    exact ih

/-! ## Finishing -/

/-- A builder that nothing was added to finishes no body. -/
theorem Builder.finish_of_untouched {b : Builder} (opened : b.opened = []) (closed : b.closed = []) :
    b.finish = .error .emptyBody := by
  simp [finish, clauses, opened, closed, Vocabulary.firstObjection?, Body.ofList, bind, Except.bind]

/-- A builder does not finish after an OR condition that nothing was added after, whatever is in the closed groups. -/
theorem Builder.finish_of_dangling {b : Builder} (opened : b.opened = []) (closed : b.closed ≠ []) :
    b.finish = .error (.danglingOr b.closed.length) := by
  simp [finish, clauses, opened, closed, Builder.or, Except.map, bind, Except.bind]

/-- With something in the open group, a builder finishes unless there is an objection to its groups. -/
theorem Builder.finish_of_opened {b : Builder} (opened : b.opened ≠ []) {groups : List (List Expression)}
    (hg : b.pending [] = groups) : b.finish = match b.vocabulary.firstObjection? b.flow groups with
      | some defect => .error defect
      | none => .ok ⟨b.closed ++ [⟨b.opened, opened⟩], by simp⟩ := by
  subst hg
  have clauses : b.clauses = .ok (b.closed ++ [⟨b.opened, opened⟩]) := by
    simp [Builder.clauses, Builder.or, opened, Except.map]
  have groups : (b.closed ++ [(⟨b.opened, opened⟩ : Clause)]).map Clause.expressions = b.pending [] := by
    simp [pending_nil]
  simp only [finish, clauses, bind, Except.bind, groups]
  cases b.vocabulary.firstObjection? b.flow (b.pending []) with
  | some defect => rfl
  | none => simp [Body.ofList]

theorem Builder.result_build (b : Builder) : b.build.result = b.finish := by
  unfold build
  cases b.finish <;> rfl

/-- What comes of a stream that was followed to its end: no body without any instruction, a defect if nothing was added
after the last OR condition, the objection to the first expression that is outside the vocabulary, or else the body whose
groups are the segments of the stream. A stream that ends in an OR condition is refused for that, whatever the vocabulary
has against its expressions. -/
inductive Builder.Ending (v : Vocabulary) (flow : Flow) (stream : List Instruction) : Except Defect Body → Prop
  | untouched (h : stream = []) : Ending v flow stream (.error .emptyBody)
  | dangling (divided : Instruction.or ∈ stream) (last : (segments stream).getLast? = some []) :
      Ending v flow stream (.error (.danglingOr (stream.count .or)))
  | refused {group index : Nat} {e : Expression} {source : Defect} (last : (segments stream).getLast? ≠ some [])
      (first : FirstAt v.Outside (segments stream) group index e) (why : v.Refuses flow e source) :
      Ending v flow stream (.error (.atExpression group index source))
  | built {body : Body} (last : (segments stream).getLast? ≠ some [])
      (permitted : ∀ group ∈ segments stream, ∀ e ∈ group, v.permits e.field e.operator = true)
      (groups : body.groups = segments stream) : Ending v flow stream (.ok body)

/-- A builder that starts with nothing and has followed a stream holds the segments of the stream. -/
theorem Builder.held_follow {b b' : Builder} {stream : List Instruction} (opened : b.opened = []) (closed : b.closed = [])
    (h : b.follow stream = .ok b') : b'.closed.map Clause.expressions ++ [b'.opened] = segments stream := by
  have := pending_follow h []
  rwa [pending_nil, List.append_nil, pending_of_fresh opened closed] at this

/-- What a builder that starts with nothing finishes is told by the stream alone. -/
theorem Builder.finish_eq_iff_ending {b b' : Builder} {stream : List Instruction} {r : Except Defect Body}
    (opened : b.opened = []) (closed : b.closed = []) (h : b.follow stream = .ok b') :
    b'.finish = r ↔ Ending b.vocabulary b.flow stream r := by
  have held := held_follow opened closed h
  have last : (segments stream).getLast? = some b'.opened := by rw [← held]; simp
  have count : b'.closed.length = stream.count .or := by simpa [closed] using length_closed_follow h
  have divided : Instruction.or ∈ stream ↔ b'.closed ≠ [] := by
    rw [← List.count_pos_iff, ← count, List.length_pos_iff]
  have added : b'.opened ≠ [] ↔ (segments stream).getLast? ≠ some [] := by simp [last]
  have finished := fun ho => finish_of_opened (b := b') ho ((pending_nil b').trans held)
  rw [(scope_follow h).1, (scope_follow h).2.2] at finished
  constructor
  · rintro rfl
    by_cases ho : b'.opened = []
    · by_cases hc : b'.closed = []
      · rw [finish_of_untouched ho hc]
        exact .untouched (segments_eq_singleton_nil_iff.1 (by rw [← held, ho, hc]; rfl))
      · rw [finish_of_dangling ho hc, count]
        exact .dangling (divided.2 hc) (ho ▸ last)
    · rw [finished ho]
      cases hd : b.vocabulary.firstObjection? b.flow (segments stream) with
      | none => exact .built (added.1 ho) (Vocabulary.firstObjection?_eq_none_iff.1 hd) (by simpa [Body.groups] using held)
      | some defect =>
        obtain ⟨group, index, e, source, first, why, rfl⟩ := Vocabulary.firstObjection?_eq_some_iff.1 hd
        exact .refused (added.1 ho) first why
  · rintro (rfl | ⟨hd, hl⟩ | ⟨hl, first, why⟩ | ⟨hl, permitted, groups⟩)
    · cases h
      exact finish_of_untouched opened closed
    · rw [finish_of_dangling (Option.some.inj (last.symm.trans hl)) (divided.1 hd), count]
    · rw [finished (added.2 hl), Vocabulary.firstObjection?_eq_some_iff.2 ⟨_, _, _, _, first, why, rfl⟩]
    · rw [finished (added.2 hl), Vocabulary.firstObjection?_eq_none_iff.2 permitted]
      exact congrArg Except.ok (Body.groups_injective (by rw [groups]; simpa [Body.groups] using held))

/-- A builder is created exactly if a vocabulary is served, and it starts with nothing. -/
theorem Builder.create_eq_ok_iff {serve : Lookup} {flow : Flow} {tenant : String} {b : Builder} :
    (create serve flow tenant).result = .ok b ↔ ∃ v, serve flow tenant = .ok v ∧ b = ⟨flow, tenant, v, [], []⟩ := by
  unfold create
  cases serve flow tenant with
  | error fault => simp
  | ok v => simp [eq_comm]

/-- What a new builder does with a stream, in four parts, whatever vocabulary it was created with.
1. The stream has one segment more than OR conditions.
2. An OR condition that is reached succeeds exactly when its segment is not empty; otherwise it is the dangling one.
3. The stream fails exactly at the first of its segments that is empty and has an OR condition behind it.
4. A stream that is followed to its end is built into exactly what `Builder.Ending` says. -/
theorem Builder.stream_outcome {serve : Lookup} {flow : Flow} {tenant : String} {b : Builder}
    (created : (create serve flow tenant).result = .ok b) (stream : List Instruction) :
    (segments stream).length = stream.count .or + 1 ∧
    (∀ before after b', stream = before ++ .or :: after → b.follow before = .ok b' →
      ∃ segment, (segments stream)[before.count .or]? = some segment ∧
        ((∃ b'', b'.or = .ok b'') ↔ segment ≠ []) ∧
        (segment = [] → b'.or = .error (.danglingOr (before.count .or)))) ∧
    (∀ defect, b.follow stream = .error defect ↔ ∃ k, k + 1 < (segments stream).length ∧
      (segments stream)[k]? = some [] ∧ (∀ j < k, (segments stream)[j]? ≠ some []) ∧ defect = .danglingOr k) ∧
    (∀ b', b.follow stream = .ok b' → ∀ r, b'.build.result = r ↔ Ending b.vocabulary flow stream r) := by
  obtain ⟨v, -, rfl⟩ := create_eq_ok_iff.1 created
  have fresh := fun stream => pending_of_fresh (b := ⟨flow, tenant, v, [], []⟩) rfl rfl stream
  refine ⟨length_segments stream, ?_, ?_, ?_⟩
  · rintro before after b' rfl h
    have count : b'.closed.length = before.count .or := by simpa using length_closed_follow h
    have here := pending_follow h (.or :: after)
    rw [fresh, pending_or] at here
    refine ⟨b'.opened, by simp [← here, ← count], ?_, ?_⟩
    · constructor
      · rintro ⟨b'', ho⟩
        obtain ⟨hne, -⟩ := or_eq_ok_iff.1 ho
        exact hne
      · intro hne
        exact ⟨_, or_eq_ok_iff.2 ⟨hne, rfl⟩⟩
    · intro hn
      exact or_eq_error_iff.2 ⟨hn, by rw [count]⟩
  · intro defect
    rw [follow_eq_error_iff, fresh]
  · intro b' h r
    rw [result_build]
    exact finish_eq_iff_ending rfl rfl h

/-- A stream that ends in an OR condition is refused for that, even if the vocabulary has no field at all. With one field in the
vocabulary, a stream of two segments is refused for the one expression whose operator the field lacks, and built without it. -/
theorem Builder.dangling_before_outside :
    let e : Expression := ⟨"ip", .equals, "10.0.0.1", by decide, by decide⟩
    let lacking : Expression := ⟨"ip", .contains, "10.0", by decide, by decide⟩
    let v := Vocabulary.empty.registerAll [⟨"ip", [.equals]⟩]
    let body : Body := ⟨[⟨[e], List.cons_ne_nil e []⟩, ⟨[e, e], List.cons_ne_nil e [e]⟩], List.cons_ne_nil _ _⟩
    let fresh (v : Vocabulary) : Builder := ⟨.preIssueAccessToken, "carbon.super", v, [], []⟩
    (∀ v, (create (fun _ _ => .ok v) .preIssueAccessToken "carbon.super").result = .ok (fresh v)) ∧
      (∃ b, (fresh .empty).follow [.add e, .or] = .ok b ∧ b.build.result = .error (.danglingOr 1)) ∧
      (∃ b, (fresh v).follow [.add e, .or, .add e, .add lacking] = .ok b ∧
        b.build.result = .error (.atExpression 1 1 (.unsupportedOperator "ip" .contains .preIssueAccessToken))) ∧
      ∃ b, (fresh v).follow [.add e, .or, .add e, .add e] = .ok b ∧ b.build.result = .ok body := by
  intro e lacking v body fresh
  have created : ∀ v, (create (fun _ _ => .ok v) .preIssueAccessToken "carbon.super").result = .ok (fresh v) := fun _ => rfl
  refine ⟨created, ⟨_, rfl, ?_⟩, ⟨_, rfl, ?_⟩, ⟨_, rfl, ?_⟩⟩
  · obtain ⟨-, -, -, ending⟩ := stream_outcome (created .empty) [.add e, .or]
    exact (ending _ rfl _).2 (.dangling (by simp) rfl)
  · obtain ⟨-, -, -, ending⟩ := stream_outcome (created v) [.add e, .or, .add e, .add lacking]
    have objection : v.firstObjection? .preIssueAccessToken [[e], [e, lacking]] =
        some (.atExpression 1 1 (.unsupportedOperator "ip" .contains .preIssueAccessToken)) := by decide
    obtain ⟨group, index, _, source, first, why, same⟩ := Vocabulary.firstObjection?_eq_some_iff.1 objection
    rw [same]
    exact (ending _ rfl _).2 (.refused (by decide) first why)
  · obtain ⟨-, -, -, ending⟩ := stream_outcome (created v) [.add e, .or, .add e, .add e]
    exact (ending _ rfl _).2 (.built (by decide) (by decide) rfl)

end GateRules
