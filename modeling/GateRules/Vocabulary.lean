import GateRules.Expression

/-!
# Vocabularies

A vocabulary lists the fields that rules of one flow and tenant may test, and the operators each field may be tested
with. Fields stand in the order they were first registered and operators in the order they were first mentioned, neither
of them twice. To register a field again adds to its operators and leaves it where it is. Fields are found by an index that
tells the place of each; that it tells the right one is part of what a vocabulary is.
-/

namespace GateRules

/-- A field and operators it may be tested with. -/
structure Entry where
  name : String
  operators : List Operator
deriving DecidableEq

/-- An operator is added at the end unless it is there already. -/
def Operator.insertLast (operators : List Operator) (operator : Operator) : List Operator :=
  if operator ∈ operators then operators else operators ++ [operator]

/-- Those of `more` that `known` lacks are added to it, one after the other. -/
def Operator.extend (known more : List Operator) : List Operator := more.foldl insertLast known

/-- An operator that is put last is among the operators, and nothing else is that was not before. -/
theorem Operator.mem_insertLast {operators : List Operator} {a b : Operator} :
    a ∈ insertLast operators b ↔ a ∈ operators ∨ a = b := by
  unfold insertLast
  split
  · exact ⟨Or.inl, fun h => h.elim id fun h => by subst h; assumption⟩
  · simp

/-- A list that is extended by another has what is in either of them. -/
theorem Operator.mem_extend {known more : List Operator} {a : Operator} :
    a ∈ extend known more ↔ a ∈ known ∨ a ∈ more := by
  induction more generalizing known with
  | nil => simp [extend]
  | cons b more ih =>
    have := @ih (insertLast known b)
    simp only [extend, List.foldl_cons] at this ⊢
    simp [this, mem_insertLast, or_assoc]

/-- An operator that is put last does not come to stand twice. -/
theorem Operator.nodup_insertLast {operators : List Operator} (h : operators.Nodup) (a : Operator) :
    (insertLast operators a).Nodup := by
  unfold insertLast
  split
  · exact h
  · rename_i ha
    simpa [List.nodup_append, h] using fun b (hb : b ∈ operators) (hba : b = a) => ha (hba ▸ hb)

/-- A list that is extended has no operator twice, whatever it is extended by. -/
theorem Operator.nodup_extend {known : List Operator} (h : known.Nodup) (more : List Operator) :
    (extend known more).Nodup := by
  induction more generalizing known with
  | nil => exact h
  | cons b more ih => exact ih (nodup_insertLast h b)

/-- To extend by two lists is to extend by one after the other. -/
theorem Operator.extend_append (known a b : List Operator) : extend known (a ++ b) = extend (extend known a) b :=
  List.foldl_append

/-! ## Entries -/

/-- An entry with more operators. -/
def Entry.extend (entry : Entry) (operators : List Operator) : Entry :=
  { entry with operators := Operator.extend entry.operators operators }

/-- More operators for one entry leave all the names as they are. -/
theorem Entry.names_modify (entries : List Entry) (i : Nat) (operators : List Operator) :
    (entries.modify i (extend · operators)).map name = entries.map name := by
  induction entries generalizing i with
  | nil => rw [List.modify_nil]
  | cons e rest ih =>
    cases i with
    | zero => rfl
    | succ i => rw [List.modify_succ_cons, List.map_cons, ih, List.map_cons]

/-- More operators for the entry that comes last. -/
theorem Entry.modify_length (entries : List Entry) (last : Entry) (operators : List Operator) :
    (entries ++ [last]).modify entries.length (extend · operators) = entries ++ [last.extend operators] := by
  induction entries with
  | nil => rfl
  | cons e rest ih => rw [List.cons_append, List.length_cons, List.modify_succ_cons, ih, List.cons_append]

/-- The entries after `entry` is registered, told without places: its operators go to the entry of its name, or a new entry
is made at the end. -/
def Entry.register (entry : Entry) : List Entry → List Entry
  | [] => [⟨entry.name, Operator.extend [] entry.operators⟩]
  | e :: rest =>
    if e.name = entry.name then ⟨e.name, Operator.extend e.operators entry.operators⟩ :: rest
    else e :: entry.register rest

/-- A name registered for the first time comes last, and any other stays where it is. -/
theorem Entry.names_register (entry : Entry) (entries : List Entry) :
    (entry.register entries).map Entry.name =
      if entry.name ∈ entries.map Entry.name then entries.map Entry.name
      else entries.map Entry.name ++ [entry.name] := by
  induction entries with
  | nil => simp [register]
  | cons e rest ih =>
    by_cases h : e.name = entry.name
    · simp [register, h]
    · have h' : entry.name ≠ e.name := fun hn => h hn.symm
      simp only [register, h, if_false, List.map_cons, ih, List.mem_cons, h', false_or]
      split <;> simp

/-- An entry of a new name goes to the end. -/
theorem Entry.register_of_notMem {entry : Entry} {entries : List Entry} (h : entry.name ∉ entries.map name) :
    entry.register entries = entries ++ [⟨entry.name, Operator.extend [] entry.operators⟩] := by
  induction entries with
  | nil => rfl
  | cons e rest ih =>
    rw [List.map_cons, List.mem_cons, not_or] at h
    rw [register, if_neg (Ne.symm h.1), ih h.2, List.cons_append]

/-- The operators of a known name go to the place of the name. -/
theorem Entry.register_of_getElem? {entry : Entry} {entries : List Entry} (nodup : (entries.map name).Nodup) {i : Nat}
    (h : (entries.map name)[i]? = some entry.name) :
    entry.register entries = entries.modify i (extend · entry.operators) := by
  induction entries generalizing i with
  | nil => cases h
  | cons e rest ih =>
    rw [List.map_cons, List.nodup_cons] at nodup
    cases i with
    | zero =>
      have here : e.name = entry.name := Option.some.inj h
      rw [register, if_pos here, List.modify_zero_cons, extend]
    | succ i =>
      have later : (rest.map name)[i]? = some entry.name := h
      have other : e.name ≠ entry.name := fun hn => nodup.1 (hn ▸ List.mem_of_getElem? later)
      rw [register, if_neg other, ih nodup.2 later, List.modify_succ_cons]

/-! ## Vocabularies -/

/-- Fields that may be tested, each with its operators, and an index that tells the place of each field. -/
structure Vocabulary where
  index : String → Option Nat
  entries : List Entry
  index_eq_some_iff : ∀ name i, index name = some i ↔ (entries.map Entry.name)[i]? = some name
  operators_nodup : ∀ e ∈ entries, e.operators.Nodup

/-- The vocabulary with no fields. -/
def Vocabulary.empty : Vocabulary := ⟨fun _ => none, [], by simp, by simp⟩

/-- How many fields a vocabulary has. -/
def Vocabulary.size (v : Vocabulary) : Nat := v.entries.length

/-- Every place that the index tells is one. -/
theorem Vocabulary.lt_of_index {v : Vocabulary} {field : String} {i : Nat} (h : v.index field = some i) :
    i < v.size := by
  obtain ⟨hi, -⟩ := List.getElem?_eq_some_iff.1 ((v.index_eq_some_iff field i).1 h)
  rwa [List.length_map] at hi

/-- The index has no field exactly when the entries have none. -/
theorem Vocabulary.index_eq_none_iff {v : Vocabulary} {field : String} :
    v.index field = none ↔ field ∉ v.entries.map Entry.name := by
  rw [Option.eq_none_iff_forall_ne_some, List.mem_iff_getElem?, not_exists]
  exact forall_congr' fun i => not_congr (v.index_eq_some_iff field i)

/-- No field stands twice in a vocabulary. -/
theorem Vocabulary.names_nodup (v : Vocabulary) : (v.entries.map Entry.name).Nodup := by
  refine List.pairwise_iff_getElem.2 fun i j hi hj hij same => ?_
  have atI := (v.index_eq_some_iff _ i).2 (List.getElem?_eq_getElem hi)
  have atJ := (v.index_eq_some_iff _ j).2 (List.getElem?_eq_getElem hj)
  rw [← same, atI] at atJ
  exact Nat.ne_of_lt hij (Option.some.inj atJ)

/-- The place of a field in the order of registration, or for a field that is not known the place it would be given. -/
def Vocabulary.place (v : Vocabulary) (field : String) : Nat := (v.index field).getD v.size

/-- An index of names stays one when a new name comes last and is given the last place. -/
theorem Vocabulary.index_append {index : String → Option Nat} {names : List String}
    (h : ∀ name i, index name = some i ↔ names[i]? = some name) {field : String} (new : index field = none) (name : String)
    (i : Nat) : (if name = field then some names.length else index name) = some i ↔
      (names ++ [field])[i]? = some name := by
  by_cases hi : i < names.length
  · have old : (names ++ [field])[i]? = names[i]? := List.getElem?_append_left hi
    by_cases hn : name = field
    · subst hn
      rw [if_pos rfl, old, ← h, new]
      simpa using Nat.ne_of_gt hi
    · rw [if_neg hn, old, h]
  · have outside : index name ≠ some i := fun hs => hi (List.getElem?_eq_some_iff.1 ((h name i).1 hs)).1
    rw [List.getElem?_append_right (Nat.le_of_not_lt hi), List.getElem?_singleton]
    by_cases hn : name = field
    · subst hn
      simp only [if_true, Option.some.injEq]
      split <;> simp <;> omega
    · simp [hn, Ne.symm hn, outside]

/-- The vocabulary that knows a field: a field that it did not know comes last and has no operators. -/
def Vocabulary.know (v : Vocabulary) (field : String) : Vocabulary :=
  if known : (v.index field).isSome then v
  else {
    index name := if name = field then some v.size else v.index name
    entries := v.entries ++ [⟨field, []⟩]
    index_eq_some_iff := by
      have new : v.index field = none := Option.not_isSome_iff_eq_none.1 known
      have length : v.size = (v.entries.map Entry.name).length := (List.length_map _).symm
      rw [List.map_append, List.map_singleton, length]
      exact index_append v.index_eq_some_iff new
    operators_nodup := List.forall_mem_append.2 ⟨v.operators_nodup, by simp⟩ }

theorem Vocabulary.place_of_index {v : Vocabulary} {field : String} {i : Nat} (h : v.index field = some i) :
    v.place field = i := by
  rw [place, h, Option.getD_some]

/-- A field that is not known is put behind all others. -/
theorem Vocabulary.place_of_unknown {v : Vocabulary} {field : String} (h : v.index field = none) :
    v.place field = v.size := by
  rw [place, h, Option.getD_none]

/-- A known field changes nothing when it is made known. -/
theorem Vocabulary.know_of_index {v : Vocabulary} {field : String} {i : Nat} (h : v.index field = some i) :
    v.know field = v :=
  dif_pos (by rw [h, Option.isSome_some])

/-- A field that was not known gets an entry behind all others, without operators. -/
theorem Vocabulary.entries_know_of_unknown {v : Vocabulary} {field : String} (h : v.index field = none) :
    (v.know field).entries = v.entries ++ [⟨field, []⟩] := by
  rw [know, dif_neg (by simp [h])]

/-- A field that is known keeps its place, and a new one has the place that it is given. -/
theorem Vocabulary.index_know (v : Vocabulary) (field name : String) :
    (v.know field).index name = if name = field then some (v.place field) else v.index name := by
  cases h : v.index field with
  | some i =>
    rw [place_of_index h, know_of_index h]
    split
    · rename_i hn
      rw [hn, h]
    · rfl
  | none => rw [place_of_unknown h, know, dif_neg (by simp [h])]

/-- A field that is known has its place among the entries. -/
theorem Vocabulary.place_lt_size_know (v : Vocabulary) (field : String) : v.place field < (v.know field).size := by
  cases h : v.index field with
  | some i =>
    rw [place_of_index h, know_of_index h]
    exact lt_of_index h
  | none =>
    rw [place_of_unknown h, size, size, entries_know_of_unknown h, List.length_append]
    exact Nat.lt_succ_self _

/-- The field at a place may be tested with more operators. -/
def Vocabulary.allow (v : Vocabulary) (place : Fin v.size) (operators : List Operator) : Vocabulary where
  index := v.index
  entries := v.entries.modify place (Entry.extend · operators)
  index_eq_some_iff := by
    rw [Entry.names_modify]
    exact v.index_eq_some_iff
  operators_nodup e he := by
    obtain ⟨i, hi⟩ := List.mem_iff_getElem?.1 he
    rw [List.getElem?_modify, Option.map_eq_map, Option.map_eq_some_iff] at hi
    obtain ⟨known, hk, rfl⟩ := hi
    have nodup := v.operators_nodup known (List.mem_of_getElem? hk)
    split
    · exact Operator.nodup_extend nodup operators
    · exact nodup

/-- The vocabulary after a field is registered with these operators. -/
def Vocabulary.register (v : Vocabulary) (entry : Entry) : Vocabulary :=
  (v.know entry.name).allow ⟨v.place entry.name, v.place_lt_size_know entry.name⟩ entry.operators

/-- The entries after a field is registered. -/
theorem Vocabulary.entries_register (v : Vocabulary) (entry : Entry) :
    (v.register entry).entries = entry.register v.entries := by
  change (v.know entry.name).entries.modify (v.place entry.name) _ = _
  cases h : v.index entry.name with
  | some i =>
    rw [place_of_index h, know_of_index h,
      Entry.register_of_getElem? v.names_nodup ((v.index_eq_some_iff _ i).1 h)]
  | none =>
    rw [place_of_unknown h, entries_know_of_unknown h, Entry.register_of_notMem (index_eq_none_iff.1 h), size,
      Entry.modify_length, Entry.extend]

/-- The vocabulary after fields are registered one after the other. -/
def Vocabulary.registerAll (v : Vocabulary) (entries : List Entry) : Vocabulary := entries.foldl register v

/-- The vocabulary that `more` extends `v` to. -/
def Vocabulary.merge (v more : Vocabulary) : Vocabulary := v.registerAll more.entries

/-- The operators of a field, if the field is known. -/
def Vocabulary.get? (v : Vocabulary) (field : String) : Option (List Operator) :=
  match h : v.index field with
  | none => none
  | some i => some (v.entries.get ⟨i, lt_of_index h⟩).operators

/-- A field without a place in the index has no operators to be asked for. -/
theorem Vocabulary.get?_of_unknown {v : Vocabulary} {field : String} (h : v.index field = none) :
    v.get? field = none := by
  unfold get?
  split
  · rfl
  · rename_i i hi
    exact nomatch hi.symm.trans h

/-- Whether a field may be tested with an operator. -/
def Vocabulary.permits (v : Vocabulary) (field : String) (operator : Operator) : Bool :=
  (v.get? field).any fun operators => operator ∈ operators

/-- What the vocabulary of `flow` has against an expression, if anything. -/
def Vocabulary.objection? (v : Vocabulary) (flow : Flow) (e : Expression) : Option Defect :=
  match v.get? e.field with
  | none => some (.unknownField e.field flow)
  | some operators =>
    if e.operator ∈ operators then none else some (.unsupportedOperator e.field e.operator flow)

/-- What the vocabulary of `flow` has against the first expression that it does not allow, with the place of that
expression. -/
def Vocabulary.firstObjection? (v : Vocabulary) (flow : Flow) (groups : List (List Expression)) : Option Defect :=
  groups.zipIdx.findSome? fun (expressions, group) =>
    expressions.zipIdx.findSome? fun (e, index) =>
      (v.objection? flow e).map (Defect.atExpression group index)

/-- The index leads to every entry. -/
theorem Vocabulary.index_of_getElem? {v : Vocabulary} {i : Nat} {e : Entry} (h : v.entries[i]? = some e) :
    v.index e.name = some i := by
  rw [v.index_eq_some_iff, List.getElem?_map, h, Option.map_some]

/-- The operators of a field are those of the entry that the index leads to. -/
theorem Vocabulary.get?_of_index {v : Vocabulary} {field : String} {i : Nat} (h : v.index field = some i) :
    v.get? field = v.entries[i]?.map Entry.operators := by
  rw [List.getElem?_eq_getElem (lt_of_index h), Option.map_some]
  unfold get?
  split
  · rename_i hn
    exact nomatch hn.symm.trans h
  · rename_i j hj
    obtain rfl := Option.some.inj (hj.symm.trans h)
    rfl

/-- A field has the operators of its entry. -/
theorem Vocabulary.get?_eq_some_iff {v : Vocabulary} {field : String} {operators : List Operator} :
    v.get? field = some operators ↔ ⟨field, operators⟩ ∈ v.entries := by
  constructor
  · intro h
    cases hi : v.index field with
    | none => exact nomatch (get?_of_unknown hi).symm.trans h
    | some i =>
      rw [get?_of_index hi, Option.map_eq_some_iff] at h
      obtain ⟨e, he, rfl⟩ := h
      have hn := (v.index_eq_some_iff field i).1 hi
      rw [List.getElem?_map, he, Option.map_some, Option.some.injEq] at hn
      subst hn
      exact List.mem_of_getElem? he
  · intro h
    obtain ⟨i, hi⟩ := List.mem_iff_getElem?.1 h
    rw [get?_of_index (index_of_getElem? hi), hi, Option.map_some]

/-- A field is not known exactly when no entry has its name. -/
theorem Vocabulary.get?_eq_none_iff {v : Vocabulary} {field : String} :
    v.get? field = none ↔ field ∉ v.entries.map Entry.name := by
  rw [← index_eq_none_iff]
  constructor
  · intro h
    cases hi : v.index field with
    | none => rfl
    | some i =>
      rw [get?_of_index hi, List.getElem?_eq_getElem (lt_of_index hi)] at h
      cases h
  · exact get?_of_unknown

/-- The entries determine the index, and so the whole vocabulary. -/
theorem Vocabulary.ext {v w : Vocabulary} (h : v.entries = w.entries) : v = w := by
  have index : v.index = w.index := by
    funext name
    apply Option.ext
    intro i
    rw [v.index_eq_some_iff, w.index_eq_some_iff, h]
  cases v
  cases w
  simp_all

instance : DecidableEq Vocabulary := fun _ _ => decidable_of_iff _ ⟨Vocabulary.ext, congrArg Vocabulary.entries⟩

/-- There is no objection to an expression exactly when the vocabulary permits its field and operator. -/
theorem Vocabulary.objection?_eq_none_iff {v : Vocabulary} {flow : Flow} {e : Expression} :
    v.objection? flow e = none ↔ v.permits e.field e.operator = true := by
  unfold objection? permits
  cases v.get? e.field <;> simp

end GateRules
