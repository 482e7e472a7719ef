import GateRules.Proofs.Growing

/-!
# Laws of merging

To merge a vocabulary is to register its fields, one after the other, so the laws of merging are about runs of registrations.
Two facts carry them: a field that is known with all its operators leaves no trace when it is registered again
(`Vocabulary.register_eq_self_iff`), and fields that are all new come behind those that are known, as they are
(`Vocabulary.entries_registerAll_of_new`). So a vocabulary merged into nothing is what it was, and one merged into a vocabulary
that extends it is lost in it.
-/

namespace GateRules

/-! ## Operators of one field -/

/-- Operators that are known already add nothing. -/
theorem Operator.extend_of_subset {known more : List Operator} (h : ∀ o ∈ more, o ∈ known) :
    extend known more = known := by
  induction more with
  | nil => rfl
  | cons o more ih =>
    rw [List.forall_mem_cons] at h
    have here : insertLast known o = known := if_pos h.1
    calc extend known (o :: more)
        = extend (insertLast known o) more := rfl
      _ = known := by rw [here, ih h.2]

/-- Operators that are all new come last, in their order. -/
theorem Operator.extend_of_nodup {known more : List Operator} (h : (known ++ more).Nodup) :
    extend known more = known ++ more := by
  induction more generalizing known with
  | nil => rw [List.append_nil]; rfl
  | cons o more ih =>
    have new : o ∉ known := fun ho => (List.nodup_append.1 h).2.2 o ho o List.mem_cons_self rfl
    have here : insertLast known o = known ++ [o] := if_neg new
    have later : (known ++ [o] ++ more).Nodup := by rwa [List.append_assoc, List.singleton_append]
    calc extend known (o :: more)
        = extend (insertLast known o) more := rfl
      _ = known ++ [o] ++ more := by rw [here, ih later]
      _ = known ++ o :: more := by rw [List.append_assoc, List.singleton_append]

/-! ## Fields that are known and fields that are new -/

/-- A vocabulary stays as it is when a field is registered that it knows with all these operators, and only then. -/
theorem Vocabulary.register_eq_self_iff {v : Vocabulary} {entry : Entry} :
    v.register entry = v ↔ v.get? entry.name ≠ none ∧ ∀ o ∈ entry.operators, v.permits entry.name o = true := by
  constructor
  · intro h
    refine ⟨?_, fun o ho => ?_⟩
    · rw [ne_eq, get?_eq_none_iff, not_not, ← h, mem_names_register_iff]
      exact .inr rfl
    · rw [← h, permits_register_iff]
      exact .inr ⟨rfl, ho⟩
  · rintro ⟨known, permitted⟩
    obtain ⟨i, hi⟩ := Option.ne_none_iff_exists'.1 fun hn => known (get?_of_unknown hn)
    obtain ⟨e, he, -, hget⟩ := exists_entry_of_index hi
    have subset : ∀ o ∈ entry.operators, o ∈ e.operators := by
      intro o ho
      simpa [permits, hget] using permitted o ho
    apply Vocabulary.ext
    rw [entries_register, Entry.register_of_getElem? v.names_nodup ((v.index_eq_some_iff _ i).1 hi)]
    apply List.ext_getElem?
    intro j
    rw [List.getElem?_modify]
    split
    · rename_i hj
      subst hj
      simp [he, Entry.extend, Operator.extend_of_subset subset]
    · simp

/-- Fields that leave no trace one by one leave none together. -/
theorem Vocabulary.registerAll_eq_self {v : Vocabulary} {entries : List Entry}
    (h : ∀ e ∈ entries, v.register e = v) : v.registerAll entries = v := by
  induction entries with
  | nil => rfl
  | cons e rest ih =>
    rw [List.forall_mem_cons] at h
    rw [registerAll_cons, h.1, ih h.2]

/-- Fields that are all new come behind the known ones, as they are. -/
theorem Vocabulary.entries_registerAll_of_new {v : Vocabulary} {entries : List Entry}
    (names : ((v.entries ++ entries).map Entry.name).Nodup) (operators : ∀ e ∈ entries, e.operators.Nodup) :
    (v.registerAll entries).entries = v.entries ++ entries := by
  induction entries generalizing v with
  | nil => rw [List.append_nil]; rfl
  | cons e rest ih =>
    rw [List.forall_mem_cons] at operators
    have new : e.name ∉ v.entries.map Entry.name := by
      intro he
      rw [List.map_append, List.nodup_append] at names
      exact names.2.2 e.name he e.name (by simp) rfl
    have here : (v.register e).entries = v.entries ++ [e] := by
      rw [entries_register, Entry.register_of_notMem new, Operator.extend_of_nodup (by simpa using operators.1),
        List.nil_append]
    have later : (((v.register e).entries ++ rest).map Entry.name).Nodup := by
      rwa [here, List.append_assoc, List.singleton_append]
    rw [registerAll_cons, ih later operators.2, here, List.append_assoc, List.singleton_append]

/-! ## Vocabularies -/

/-- A merged vocabulary has everything that the one has which was merged into. -/
theorem Vocabulary.merge_extends_left (v w : Vocabulary) : (v.merge w).Extends v where
  known field := by
    rw [get?_eq_none_iff, get?_eq_none_iff, merge, mem_names_registerAll_iff]
    exact fun h hv => h (.inl hv)
  permits field operator h := permits_registerAll_iff.2 (.inl h)

/-- A merged vocabulary has everything that the one has which was merged. -/
theorem Vocabulary.merge_extends_right (v w : Vocabulary) : (v.merge w).Extends w where
  known field := by
    rw [get?_eq_none_iff, get?_eq_none_iff, merge, mem_names_registerAll_iff]
    exact fun h hw => h (.inr hw)
  permits field operator h := permits_registerAll_iff.2 (.inr (permits_iff.1 h))

/-- A vocabulary stays as it is when one is merged into it that it extends, and only then. -/
theorem Vocabulary.merge_eq_self_iff {v w : Vocabulary} : v.merge w = v ↔ v.Extends w := by
  constructor
  · intro h
    exact h ▸ v.merge_extends_right w
  · intro h
    refine registerAll_eq_self fun e he => register_eq_self_iff.2 ⟨fun unknown => ?_, fun o ho => ?_⟩
    · exact get?_eq_none_iff.1 (h.known e.name unknown) (List.mem_map_of_mem he)
    · exact h.permits e.name o (permits_iff.2 ⟨e, he, rfl, ho⟩)

/-- A vocabulary that is merged into nothing comes out as it is. -/
theorem Vocabulary.empty_merge (v : Vocabulary) : empty.merge v = v := by
  apply Vocabulary.ext
  have names : ((empty.entries ++ v.entries).map Entry.name).Nodup := v.names_nodup
  exact entries_registerAll_of_new names v.operators_nodup

/-- Merging laws, in four parts, for all vocabularies; equal are their fields and operators in order, and their indices.
1. To merge nothing changes nothing, and what is merged into nothing comes out as it is.
2. Of three vocabularies it makes no difference which two are merged first.
3. A vocabulary that was merged into, or that is merged into itself, adds nothing when it is merged again.
4. To merge what calls have registered is to register the calls themselves. -/
theorem Vocabulary.merge_laws (a b c : Vocabulary) :
    (empty.merge a = a ∧ a.merge empty = a) ∧
    (a.merge b).merge c = a.merge (b.merge c) ∧
    ((a.merge b).merge a = a.merge b ∧ a.merge a = a) ∧
    ∀ calls, a.merge (empty.registerAll calls) = a.registerAll calls := by
  refine ⟨⟨a.empty_merge, a.merge_empty⟩, ?_, ⟨?_, ?_⟩, ?_⟩
  · exact (a.merge_registerAll b c.entries).symm
  · exact merge_eq_self_iff.2 (a.merge_extends_left b)
  · exact merge_eq_self_iff.2 (.refl a)
  · intro calls
    rw [merge_registerAll, merge_empty]

end GateRules
