import GateRules.Proofs.Registering

/-!
# What a vocabulary keeps of the calls

A vocabulary is made by calls that register fields, and it keeps an index beside the fields it lists. What is listed is told
from the calls alone (`Entry.collect`): a run of calls is collected by one step after the other, and whatever the index tells
stays as it is. What is known and what is permitted is told without any order, for the calls on any vocabulary.
-/

namespace GateRules

/-! ## What is mentioned -/

/-- An item that is put last is new unless it is among those before it. -/
theorem eraseDups_concat {α : Type} [DecidableEq α] (items : List α) (a : α) :
    (items ++ [a]).eraseDups = if a ∈ items then items.eraseDups else items.eraseDups ++ [a] := by
  rw [List.eraseDups_append]
  by_cases h : a ∈ items <;> simp [List.removeAll, h, List.eraseDups_cons]

/-- Operators that are added to what was mentioned are mentioned after it. -/
theorem Operator.extend_eraseDups (known more : List Operator) :
    extend known.eraseDups more = (known ++ more).eraseDups := by
  induction more generalizing known with
  | nil => rw [List.append_nil]; rfl
  | cons operator more ih =>
    have added : insertLast known.eraseDups operator = (known ++ [operator]).eraseDups := by
      rw [eraseDups_concat, insertLast]
      simp only [List.mem_eraseDups]
    calc extend known.eraseDups (operator :: more)
        = extend (insertLast known.eraseDups operator) more := rfl
      _ = (known ++ [operator] ++ more).eraseDups := by rw [added, ih]
      _ = (known ++ operator :: more).eraseDups := by rw [List.append_assoc, List.singleton_append]

/-- The operators that calls mention for a field, in the order of the calls. -/
def Entry.mentioned (field : String) (calls : List Entry) : List Operator :=
  (calls.filter fun call => call.name = field).flatMap operators

/-- The fields that calls mention, each where it is first mentioned, with the operators that are mentioned for it, each where
it is first mentioned. -/
def Entry.collect (calls : List Entry) : List Entry :=
  (calls.map name).eraseDups.map fun field => ⟨field, (mentioned field calls).eraseDups⟩

/-- The operators mentioned with a field are those of the calls for the field. -/
theorem Entry.mem_mentioned_iff {field : String} {calls : List Entry} {operator : Operator} :
    operator ∈ mentioned field calls ↔ ∃ call ∈ calls, call.name = field ∧ operator ∈ call.operators := by
  simp [mentioned, and_assoc]

/-- A call adds to what is mentioned with its own field alone. -/
theorem Entry.mentioned_concat (field : String) (calls : List Entry) (call : Entry) :
    mentioned field (calls ++ [call]) = mentioned field calls ++ if call.name = field then call.operators else [] := by
  unfold mentioned
  rw [List.filter_append, List.flatMap_append]
  by_cases h : call.name = field <;> simp [h]

/-- Nothing is mentioned for a field that no call names. -/
theorem Entry.mentioned_of_notMem {field : String} {calls : List Entry} (h : field ∉ calls.map name) :
    mentioned field calls = [] := by
  rw [List.eq_nil_iff_forall_not_mem]
  intro operator ho
  obtain ⟨call, hc, rfl, -⟩ := mem_mentioned_iff.1 ho
  exact h (List.mem_map_of_mem hc)

/-- To register a field among fields that are told by their names is to change what is told of its name. -/
theorem Entry.register_map {entry : Entry} {fields : List String} (nodup : fields.Nodup) (known : entry.name ∈ fields)
    (operators : String → List Operator) :
    entry.register (fields.map fun field => ⟨field, operators field⟩) =
      fields.map fun field =>
        ⟨field, if entry.name = field then Operator.extend (operators field) entry.operators else operators field⟩ := by
  induction fields with
  | nil => cases known
  | cons field fields ih =>
    rw [List.nodup_cons] at nodup
    rw [List.map_cons, List.map_cons, register]
    by_cases h : field = entry.name
    · subst h
      have others : ∀ other ∈ fields, entry.name ≠ other := fun other ho hn => nodup.1 (hn ▸ ho)
      rw [if_pos rfl, if_pos rfl]
      refine congrArg _ (List.map_congr_left fun other ho => ?_)
      rw [if_neg (others other ho)]
    · have later : entry.name ∈ fields := (List.mem_cons.1 known).resolve_left (Ne.symm h)
      rw [if_neg h, if_neg (Ne.symm h), ih nodup.2 later]

/-- The collected entries are in the order in which their fields were first mentioned. -/
theorem Entry.names_collect (calls : List Entry) : (collect calls).map name = (calls.map name).eraseDups := by
  rw [collect, List.map_map]
  exact List.map_id _

/-- One more call is collected by registering it. -/
theorem Entry.register_collect {calls : List Entry} (nodup : ((collect calls).map name).Nodup) (call : Entry) :
    call.register (collect calls) = collect (calls ++ [call]) := by
  rw [names_collect] at nodup
  have told : ∀ field, (mentioned field (calls ++ [call])).eraseDups =
      if call.name = field then Operator.extend (mentioned field calls).eraseDups call.operators
      else (mentioned field calls).eraseDups := by
    intro field
    rw [mentioned_concat, Operator.extend_eraseDups]
    split
    · rfl
    · rw [List.append_nil]
  by_cases known : call.name ∈ calls.map name
  · simp only [collect, List.map_append, List.map_singleton, eraseDups_concat, if_pos known, told]
    exact register_map nodup (List.mem_eraseDups.2 known) _
  · have new : call.name ∉ (collect calls).map name := by rwa [names_collect, List.mem_eraseDups]
    have others : ∀ field ∈ (calls.map name).eraseDups, call.name ≠ field := fun field hf hn =>
      known (List.mem_eraseDups.1 (hn ▸ hf))
    rw [register_of_notMem new]
    simp only [collect, List.map_append, List.map_singleton, eraseDups_concat, if_neg known, told, if_pos,
      mentioned_of_notMem known, List.eraseDups_nil]
    refine congrArg (· ++ _) (List.map_congr_left fun field hf => ?_)
    rw [if_neg (others field hf)]

/-! ## Runs of calls -/

/-- Whatever calls a vocabulary has collected, it collects more calls after them. -/
theorem Vocabulary.entries_registerAll {v : Vocabulary} {before : List Entry} (h : v.entries = Entry.collect before)
    (calls : List Entry) : (v.registerAll calls).entries = Entry.collect (before ++ calls) := by
  induction calls generalizing v before with
  | nil => rw [List.append_nil]; exact h
  | cons call calls ih =>
    have nodup : ((Entry.collect before).map Entry.name).Nodup := h ▸ v.names_nodup
    have step : (v.register call).entries = Entry.collect (before ++ [call]) := by
      rw [entries_register, h, Entry.register_collect nodup]
    rw [registerAll_cons, ih step, List.append_assoc, List.singleton_append]

/-- A new vocabulary collects the calls. -/
theorem Vocabulary.entries_registerAll_empty (calls : List Entry) :
    (empty.registerAll calls).entries = Entry.collect calls :=
  @entries_registerAll empty [] rfl calls

/-! ## Places -/

/-- A field keeps its place when a field is registered. -/
theorem Vocabulary.index_register {v : Vocabulary} {field : String} {i : Nat} (h : v.index field = some i) (call : Entry) :
    (v.register call).index field = some i := by
  refine (v.index_know call.name field).trans ?_
  split
  · rename_i hn
    rw [← hn, place_of_index h]
  · exact h

/-- A field keeps its place for good. -/
theorem Vocabulary.index_registerAll {v : Vocabulary} {field : String} {i : Nat} (h : v.index field = some i)
    (calls : List Entry) : (v.registerAll calls).index field = some i := by
  induction calls generalizing v with
  | nil => exact h
  | cons call calls ih => exact ih (index_register h call)

/-- A call gives a field the place that it then has for good. -/
theorem Vocabulary.index_of_call (v : Vocabulary) (call : Entry) (after : List Entry) :
    (v.registerAll (call :: after)).index call.name = some (v.place call.name) := by
  have given : (v.register call).index call.name = some (v.place call.name) :=
    (v.index_know call.name call.name).trans (if_pos rfl)
  rw [registerAll_cons]
  exact index_registerAll given after

/-- At the place that the index tells stands the field, with the operators that are found for it. -/
theorem Vocabulary.exists_entry_of_index {v : Vocabulary} {field : String} {i : Nat} (h : v.index field = some i) :
    ∃ e, v.entries[i]? = some e ∧ e.name = field ∧ v.get? field = some e.operators := by
  have named := (v.index_eq_some_iff field i).1 h
  rw [List.getElem?_map, Option.map_eq_some_iff] at named
  obtain ⟨e, he, hn⟩ := named
  exact ⟨e, he, hn, by rw [get?_of_index h, he, Option.map_some]⟩

/-! ## What is known and what is permitted -/

/-- After some calls, a field is known if it was or if one of them names it. -/
theorem Vocabulary.mem_names_registerAll_iff {v : Vocabulary} {calls : List Entry} {field : String} :
    field ∈ (v.registerAll calls).entries.map Entry.name ↔
      field ∈ v.entries.map Entry.name ∨ field ∈ calls.map Entry.name := by
  induction calls generalizing v with
  | nil => simp [registerAll]
  | cons call calls ih => rw [registerAll_cons, ih, mem_names_register_iff, or_assoc, List.map_cons, List.mem_cons]

/-- A vocabulary permits an operator with a field exactly if an entry has both. -/
theorem Vocabulary.permits_iff {v : Vocabulary} {field : String} {operator : Operator} :
    v.permits field operator = true ↔ ∃ e ∈ v.entries, e.name = field ∧ operator ∈ e.operators := by
  simp only [permits, Option.any_eq_true, decide_eq_true_eq, get?_eq_some_iff]
  constructor
  · rintro ⟨operators, hm, ho⟩
    exact ⟨_, hm, rfl, ho⟩
  · rintro ⟨e, he, rfl, ho⟩
    exact ⟨_, he, ho⟩

/-- A registered entry mentions its operators for its name, and nothing else is mentioned by it. -/
theorem Entry.exists_register_iff {entry : Entry} {entries : List Entry} {field : String} {operator : Operator} :
    (∃ e ∈ entry.register entries, e.name = field ∧ operator ∈ e.operators) ↔
      (∃ e ∈ entries, e.name = field ∧ operator ∈ e.operators) ∨ (entry.name = field ∧ operator ∈ entry.operators) := by
  induction entries with
  | nil => simp [register, Operator.mem_extend]
  | cons e rest ih =>
    by_cases h : e.name = entry.name
    · have both : e.name = field ∧ operator ∈ Operator.extend e.operators entry.operators ↔
          (e.name = field ∧ operator ∈ e.operators) ∨ (entry.name = field ∧ operator ∈ entry.operators) := by
        rw [Operator.mem_extend, and_or_left, h]
      rw [register, if_pos h]
      simp only [List.mem_cons, exists_eq_or_imp, both]
      exact or_right_comm
    · simp only [register, if_neg h, List.mem_cons, exists_eq_or_imp, ih, or_assoc]

/-- After a call, an operator is permitted for a field if it was or if the call mentions it for the field. -/
theorem Vocabulary.permits_register_iff {v : Vocabulary} {call : Entry} {field : String} {operator : Operator} :
    (v.register call).permits field operator = true ↔
      v.permits field operator = true ∨ (call.name = field ∧ operator ∈ call.operators) := by
  rw [permits_iff, entries_register, Entry.exists_register_iff, permits_iff]

/-- After some calls, an operator is permitted for a field if it was or if one of them mentions it for the field. -/
theorem Vocabulary.permits_registerAll_iff {v : Vocabulary} {calls : List Entry} {field : String} {operator : Operator} :
    (v.registerAll calls).permits field operator = true ↔
      v.permits field operator = true ∨ ∃ call ∈ calls, call.name = field ∧ operator ∈ call.operators := by
  induction calls generalizing v with
  | nil => simp [registerAll]
  | cons call calls ih =>
    simp only [registerAll_cons, ih, permits_register_iff, or_assoc, List.mem_cons, exists_eq_or_imp]

/-- The operators that are found for a field are those that calls mention for it. -/
theorem Vocabulary.mem_entries_iff {calls : List Entry} {field : String} {operators : List Operator} :
    ⟨field, operators⟩ ∈ (empty.registerAll calls).entries ↔
      field ∈ calls.map Entry.name ∧ operators = (Entry.mentioned field calls).eraseDups := by
  rw [entries_registerAll_empty, Entry.collect, List.mem_map]
  simp only [Entry.mk.injEq, List.mem_eraseDups]
  constructor
  · rintro ⟨_, hf, rfl, rfl⟩
    exact ⟨hf, rfl⟩
  · rintro ⟨hf, rfl⟩
    exact ⟨field, hf, rfl, rfl⟩

/-- The fields of a vocabulary are those that were registered. -/
theorem Vocabulary.mem_names_iff {calls : List Entry} {field : String} :
    field ∈ (empty.registerAll calls).entries.map Entry.name ↔ field ∈ calls.map Entry.name := by
  simp [mem_names_registerAll_iff, empty]

/-- A vocabulary permits exactly the operators that were registered with a field. -/
theorem Vocabulary.permits_iff_mentioned {calls : List Entry} {field : String} {operator : Operator} :
    (empty.registerAll calls).permits field operator = true ↔
      ∃ call ∈ calls, call.name = field ∧ operator ∈ call.operators := by
  rw [permits_registerAll_iff, permits_iff]
  simp [empty]

/-- How many fields there are does not depend on the order of the calls. -/
theorem Vocabulary.size_of_perm {calls other : List Entry} (h : other.Perm calls) :
    (empty.registerAll other).size = (empty.registerAll calls).size := by
  have same : ∀ field, field ∈ (empty.registerAll other).entries.map Entry.name ↔
      field ∈ (empty.registerAll calls).entries.map Entry.name := by
    intro field
    rw [mem_names_iff, mem_names_iff]
    exact (h.map Entry.name).mem_iff
  have length := ((List.perm_ext_iff_of_nodup (names_nodup _) (names_nodup _)).2 same).length_eq
  rwa [List.length_map, List.length_map] at length

/-- What a vocabulary is that was made by registering fields, in five parts, for every list of calls.
1. Its fields are the names that were registered, each once and in the order in which they first were; the operators of each
   are those mentioned for it, each once and in the order in which they first were.
2. A call tells the place of its field: there the field stands, after it and after any more calls.
3. A field is found exactly if it was registered. Its place is then among the entries, and its operators are those that stand
   there; if it was only registered without operators, it is known and has none.
4. An operator is permitted for a field exactly if some call mentioned it for the field; so neither this nor the number of
   fields depends on the order of the calls.
5. Two vocabularies, their indices included, are equal exactly if their entries are. -/
theorem Vocabulary.represents_calls (calls : List Entry) :
    let v := empty.registerAll calls
    (v.entries.map Entry.name = (calls.map Entry.name).eraseDups ∧ (v.entries.map Entry.name).Nodup ∧
      ∀ e ∈ v.entries, e.operators = (Entry.mentioned e.name calls).eraseDups ∧ e.operators.Nodup) ∧
    (∀ before call after, calls = before ++ call :: after →
      v.entries[(empty.registerAll before).place call.name]?.map Entry.name = some call.name ∧
      v.index call.name = some ((empty.registerAll before).place call.name)) ∧
    (∀ field, (v.index field = none ↔ field ∉ calls.map Entry.name) ∧
      (v.get? field = none ↔ field ∉ calls.map Entry.name) ∧
      (∀ i, v.index field = some i → i < v.size ∧
        ∃ e, v.entries[i]? = some e ∧ e.name = field ∧ v.get? field = some e.operators) ∧
      (field ∈ calls.map Entry.name → (∀ call ∈ calls, call.name = field → call.operators = []) →
        v.get? field = some [])) ∧
    ((∀ field operator, v.permits field operator = true ↔
        ∃ call ∈ calls, call.name = field ∧ operator ∈ call.operators) ∧
      ∀ other, other.Perm calls → (empty.registerAll other).size = v.size ∧
        ∀ field operator, (empty.registerAll other).permits field operator = v.permits field operator) ∧
    (∀ other, empty.registerAll other = v ↔ (empty.registerAll other).entries = v.entries) := by
  intro v
  refine ⟨⟨?_, v.names_nodup, ?_⟩, ?_, ?_, ⟨fun _ _ => permits_iff_mentioned, ?_⟩, ?_⟩
  · rw [entries_registerAll_empty, Entry.names_collect]
  · intro e he
    exact ⟨(mem_entries_iff.1 he).2, v.operators_nodup e he⟩
  · rintro before call after rfl
    have place : v.index call.name = some ((empty.registerAll before).place call.name) := by
      show (empty.registerAll (before ++ call :: after)).index call.name = _
      rw [registerAll_append, index_of_call]
    refine ⟨?_, place⟩
    rw [← List.getElem?_map]
    exact (v.index_eq_some_iff _ _).1 place
  · intro field
    refine ⟨?_, ?_, ?_, ?_⟩
    · rw [index_eq_none_iff, mem_names_iff]
    · rw [get?_eq_none_iff, mem_names_iff]
    · intro i hi
      exact ⟨lt_of_index hi, exists_entry_of_index hi⟩
    · intro known without
      have none_mentioned : Entry.mentioned field calls = [] := by
        rw [List.eq_nil_iff_forall_not_mem]
        intro operator ho
        obtain ⟨call, hc, hn, hm⟩ := Entry.mem_mentioned_iff.1 ho
        rw [without call hc hn] at hm
        cases hm
      rw [get?_eq_some_iff, mem_entries_iff, none_mentioned]
      exact ⟨known, rfl⟩
  · intro other h
    refine ⟨size_of_perm h, fun field operator => ?_⟩
    rw [Bool.eq_iff_iff, permits_iff_mentioned, permits_iff_mentioned]
    simp only [h.mem_iff]
  · intro other
    exact ⟨congrArg entries, ext⟩

/-- A field that is only named is known and has no operators, one that is named again stays in its place, and the order of the
calls changes the places but neither the number of the fields nor what is permitted. -/
theorem Vocabulary.represents_repeated_calls :
    let calls : List Entry := [⟨"ip", []⟩, ⟨"agent", [.equals, .equals]⟩, ⟨"ip", []⟩, ⟨"agent", [.oneOf, .equals]⟩]
    let other : List Entry := [⟨"agent", [.oneOf, .equals]⟩, ⟨"ip", []⟩, ⟨"agent", [.equals, .equals]⟩, ⟨"ip", []⟩]
    let v := empty.registerAll calls
    v.index "agent" = some 1 ∧ v.get? "ip" = some [] ∧ v.entries = [⟨"ip", []⟩, ⟨"agent", [.equals, .oneOf]⟩] ∧
      (empty.registerAll other).size = 2 ∧ (empty.registerAll other).permits "agent" .equals = true ∧
      empty.registerAll other ≠ v := by
  intro calls other v
  obtain ⟨-, places, found, ⟨permitted, reordered⟩, equal⟩ := represents_calls calls
  have place : v.index "agent" = some 1 := (places [⟨"ip", []⟩] ⟨"agent", [.equals, .equals]⟩ _ rfl).2
  obtain ⟨-, -, -, bare⟩ := found "ip"
  obtain ⟨size, permits⟩ := reordered other (by decide)
  refine ⟨place, bare (by decide) (by decide), by decide, size, ?_, ?_⟩
  · rw [permits]
    exact (permitted "agent" .equals).2 ⟨⟨"agent", [.equals, .equals]⟩, by decide, rfl, by decide⟩
  · rw [ne_eq, equal]
    decide

end GateRules
