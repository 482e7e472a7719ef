import GateRules.Proofs.Members
import GateRules.Proofs.Passing

/-!
# Nothing but values is read

What a reader takes from a text is white space and a value (`Json.ReadsValues`), whether the value is kept or passed over. The
proof goes up as the readers are made. The elements of a list and the members of an object are read up to the end of an enclosure
(`Json.Enclosure.Ends`), one item at a time.
-/

namespace GateRules

section

variable {isFirst : Bool} {cs rest : List Char}

/-! ## Readers -/

/-- What a reader takes from a text is white space and a value. -/
def Json.ReadsValues (r : Json.Decoder α) : Prop := ∀ ⦃cs a rest⦄, r.run cs = .ok (a, rest) → ValueThen cs rest

/-- What is passed over is white space and a value. -/
theorem Json.readsValues_skip : ReadsValues skip := by
  intro cs a rest h
  simp only [skip] at h
  split at h
  · cases h
  · rename_i skipped
    cases h
    obtain ⟨after, value, all⟩ := exists_of_skipValue [] cs skipped
    cases all
    exact value

/-- A function that what was read is put through changes nothing about the text. -/
theorem Json.ReadsValues.map {r : Json.Decoder α} (h : ReadsValues r) (f : α → β) : ReadsValues (r.map f) := by
  intro cs b rest run
  obtain ⟨a, run, -⟩ := run_map_iff.1 run
  exact h run

/-- A function that may refuse what was read takes nothing more from the text. -/
theorem Json.ReadsValues.check {r : Json.Decoder α} (h : ReadsValues r) (f : α → Except Misfit β) :
    ReadsValues (check r f) := by
  intro cs b rest run
  obtain ⟨a, run, -⟩ := run_check_iff.1 run
  exact h run

/-- A reader that goes by the first character behind white space takes values if it does so without white space. -/
theorem Json.readsValues_byFirst {read : Char → List Char → Except Fault (α × List Char)}
    {length_le : ∀ {c cs a rest}, read c cs = .ok (a, rest) → rest.length ≤ cs.length}
    (h : ∀ {c cs a rest}, read c cs = .ok (a, rest) → ValueThen (c :: cs) rest) :
    ReadsValues (byFirst read @length_le) := by
  intro cs a rest run
  simp only [byFirst, Reader.byFirst] at run
  split at run
  · cases run
  · rename_i hs
    obtain ⟨pad, spaces, rfl⟩ := exists_of_skipSpace hs
    exact spaces.valueThen (h run)

/-- A string is read from its opening quote to its closing one. -/
theorem Json.exists_of_run_quoted {otherwise : Char → List Char → Fault} {name : String}
    (h : (quoted otherwise).run cs = .ok (name, rest)) :
    ∃ before spelling, Spaces before ∧ Chars spelling ∧ cs = before ++ '"' :: (spelling ++ '"' :: rest) := by
  simp only [quoted, byFirst, Reader.byFirst] at h
  split at h
  · cases h
  rename_i hs
  split at h
  · rename_i isQuote
    obtain ⟨before, spaces, rfl⟩ := exists_of_skipSpace hs
    obtain ⟨text, read, -⟩ := Reader.mapValue_eq_ok_iff.1 h
    obtain ⟨spelling, rfl, spells⟩ := readString_eq_ok_iff.1 read
    exact ⟨before, spelling, spaces, spells.chars, by rw [isQuote]⟩
  · cases h

/-- A reader of strings takes values. -/
theorem Json.readsValues_quoted (otherwise : Char → List Char → Fault) : ReadsValues (quoted otherwise) := by
  intro cs text rest run
  obtain ⟨before, spelling, spaces, chars, rfl⟩ := exists_of_run_quoted run
  exact ⟨before, '"' :: (spelling ++ ['"']), spaces, .string chars, by simp⟩

/-- The rest of `null` is behind its first letter. -/
theorem Json.valueThen_null {cs rest : List Char} {a b : α}
    (h : (readWord ['u', 'l', 'l'] cs).map (fun after => (b, after)) = .ok (a, rest)) : ValueThen ('n' :: cs) rest := by
  obtain ⟨after, read, same⟩ := Reader.map_eq_ok_iff.1 h
  cases same
  rw [eq_of_readWord read]
  exact Value.nullWord.valueThen rest

/-- The reader of `null` takes values. -/
theorem Json.readsValues_unit : ReadsValues unit := by
  refine readsValues_byFirst ?_
  intro c cs a rest run
  split at run
  · rename_i isNull
    rw [isNull]
    exact valueThen_null run
  · cases run

/-- A reader of what may be `null` takes values if it takes values otherwise. -/
theorem Json.ReadsValues.orNull {r : Json.Decoder α} (h : ReadsValues r) : ReadsValues (orNull r) := by
  refine readsValues_byFirst ?_
  intro c cs a rest run
  split at run
  · rename_i isNull
    rw [isNull]
    exact valueThen_null run
  · obtain ⟨b, run, -⟩ := Reader.mapValue_eq_ok_iff.1 run
    exact h run

/-! ## Lists -/

/-- A list ends behind white space with its bracket, be it empty or not. -/
theorem Json.exists_of_nextElement_close (h : nextElement isFirst cs = .ok (.close rest)) :
    ∃ pad, Spaces pad ∧ cs = pad ++ ']' :: rest := by
  unfold nextElement at h
  split at h
  · cases h
  rename_i hs
  split at h
  · rename_i isClosing
    cases h
    exact exists_of_skipSpace (isClosing ▸ hs)
  split at h
  · cases h
  split at h
  · split at h
    · cases h
    · split at h <;> cases h
  · cases h

/-- An element of a list stands behind white space and, unless it is the first, a comma. -/
theorem Json.exists_of_nextElement_item {here : List Char} (h : nextElement isFirst cs = .ok (.item here)) :
    ∃ pad before, Spaces pad ∧ Spaces before ∧ cs = pad ++ (front isFirst ++ (before ++ here)) := by
  unfold nextElement at h
  split at h
  · cases h
  rename_i hs
  obtain ⟨pad, spaces, rfl⟩ := exists_of_skipSpace hs
  split at h
  · cases h
  split at h
  · rename_i first
    cases h
    exact ⟨pad, [], spaces, .nil, by simp [front, first]⟩
  rename_i later
  split at h
  · rename_i isComma
    split at h
    · cases h
    rename_i hs'
    obtain ⟨before, before_spaces, rfl⟩ := exists_of_skipSpace hs'
    split at h
    · cases h
    · cases h
      exact ⟨pad, before, spaces, before_spaces, by simp [front, later, isComma]⟩
  · cases h

/-- Nothing leads to the value of an element. -/
theorem Json.Enclosure.Ends.element {pad before text : List Char} (more : Enclosure.list.Ends false cs rest)
    (spaces : Spaces pad) (isFirst : Bool) (before_spaces : Spaces before) (value : Value text) :
    Enclosure.list.Ends isFirst (pad ++ (front isFirst ++ (before ++ (text ++ cs)))) rest := by
  have leads : Enclosure.list.Leads [] := rfl
  exact more.item spaces isFirst leads before_spaces value

/-- Elements are read up to the end of their list. -/
theorem Json.ReadsValues.ends {r : Json.Decoder α} (h : ReadsValues r) {as : List α}
    (run : elements r isFirst cs = .ok (as, rest)) : Enclosure.list.Ends isFirst cs rest := by
  fun_induction elements r isFirst cs generalizing as rest with
  | case1 => cases run
  | case2 isFirst cs after hn =>
    cases run
    obtain ⟨pad, spaces, rfl⟩ := exists_of_nextElement_close hn
    exact spaces.ends .list isFirst after
  | case3 => cases run
  | case4 isFirst cs here hn a after hr ih =>
    obtain ⟨more, hm, -⟩ := Reader.mapValue_eq_ok_iff.1 run
    obtain ⟨pad, before, spaces, before_spaces, rfl⟩ := exists_of_nextElement_item hn
    obtain ⟨before', text, before_spaces', value, rfl⟩ := h hr
    have ends := (ih hm).element spaces isFirst (before_spaces.append before_spaces') value
    rwa [List.append_assoc] at ends

/-- A reader of lists takes values if the reader of the elements does. -/
theorem Json.ReadsValues.list {r : Json.Decoder α} (h : ReadsValues r) : ReadsValues (list r) := by
  refine readsValues_byFirst ?_
  intro c cs as rest run
  split at run
  · rename_i isList
    obtain ⟨more, value, rfl⟩ := (h.ends run).exists_value
    rw [isList]
    exact value.valueThen rest
  · cases run

/-! ## Objects -/

/-- An object ends behind white space with its brace, be it empty or not. -/
theorem Json.exists_of_nextMember_close (h : nextMember isFirst cs = .ok (.close rest)) :
    ∃ pad, Spaces pad ∧ cs = pad ++ '\x7d' :: rest := by
  unfold nextMember at h
  split at h
  · cases h
  rename_i hs
  split at h
  · rename_i isClosing
    cases h
    exact exists_of_skipSpace (isClosing ▸ hs)
  split at h
  · split at h <;> cases h
  split at h
  · split at h
    · cases h
    · split at h <;> cases h
  · cases h

/-- A member of an object starts with the quote of its key, behind white space and, unless it is the first, a comma. -/
theorem Json.exists_of_nextMember_item {here : List Char} (h : nextMember isFirst cs = .ok (.item here)) :
    ∃ pad before, Spaces pad ∧ Spaces before ∧ cs = pad ++ (front isFirst ++ (before ++ '"' :: here)) := by
  unfold nextMember at h
  split at h
  · cases h
  rename_i hs
  obtain ⟨pad, spaces, rfl⟩ := exists_of_skipSpace hs
  split at h
  · cases h
  split at h
  · rename_i first
    split at h
    · rename_i isQuote
      cases h
      exact ⟨pad, [], spaces, .nil, by simp [front, first, isQuote]⟩
    · cases h
  rename_i later
  split at h
  · rename_i isComma
    split at h
    · cases h
    rename_i hs'
    obtain ⟨before, before_spaces, rfl⟩ := exists_of_skipSpace hs'
    split at h
    · rename_i isQuote
      cases h
      exact ⟨pad, before, spaces, before_spaces, by simp [front, later, isComma, isQuote]⟩
    · cases h
  · cases h

/-- What is read behind a key is a colon and a value. -/
def Json.ReadsMembers (member : σ → String → Json.Decoder σ) : Prop :=
  ∀ ⦃s key cs t rest⦄, (member s key).run cs = .ok (t, rest) →
    ∃ gap after, Spaces gap ∧ cs = gap ++ ':' :: after ∧ ValueThen after rest

/-- Members are read up to the end of their object. -/
theorem Json.ReadsMembers.ends {member : σ → String → Json.Decoder σ} (h : ReadsMembers member) {s t : σ}
    (run : members member isFirst s cs = .ok (t, rest)) : Enclosure.object.Ends isFirst cs rest := by
  fun_induction members member isFirst s cs with
  | case1 => cases run
  | case2 isFirst s cs after hn =>
    cases run
    obtain ⟨pad, spaces, rfl⟩ := exists_of_nextMember_close hn
    exact spaces.ends .object isFirst rest
  | case3 => cases run
  | case4 => cases run
  | case5 isFirst s cs here hn key after hk next after' hr ih =>
    obtain ⟨pad, before, spaces, before_spaces, rfl⟩ := exists_of_nextMember_item hn
    obtain ⟨spelling, rfl, spells⟩ := readString_eq_ok_iff.1 hk
    obtain ⟨gap, _, gap_spaces, rfl, before', text, before_spaces', value, rfl⟩ := h hr
    have leads : Enclosure.object.Leads (before ++ '"' :: (spelling ++ '"' :: (gap ++ [':']))) :=
      ⟨spelling, spells.chars, before, gap, before_spaces, gap_spaces, rfl⟩
    have ends := (ih run).item spaces isFirst leads before_spaces' value
    simpa using ends

/-! ## Records -/

/-- A reader behind a colon. -/
theorem Json.exists_of_run_colon {r : Json.Decoder α} (h : ReadsValues r) {a : α}
    (run : ((mark ':').andThen fun _ => r).run cs = .ok (a, rest)) :
    ∃ gap after, Spaces gap ∧ cs = gap ++ ':' :: after ∧ ValueThen after rest := by
  obtain ⟨_, after, colon, run⟩ := run_andThen_iff.1 run
  obtain ⟨gap, spaces, same⟩ := exists_of_run_mark colon
  exact ⟨gap, after, spaces, same, h run⟩

variable {shape : Json.Shape σ α}

/-- The readers of all fields take values. -/
def Json.Shape.ReadsValues (shape : Shape σ α) : Prop := ∀ field ∈ shape.fields, ∀ s, Json.ReadsValues (field.read s)

/-- A record reads a value for each member, be it a field or passed over. -/
theorem Json.Shape.ReadsValues.readsMembers (h : shape.ReadsValues) : ReadsMembers shape.member := by
  intro s key cs t rest run
  unfold Shape.member at run
  split at run
  · rename_i field found
    split at run
    · cases run
    · exact exists_of_run_colon (h field (List.mem_of_find?_eq_some found) s) run
  · split at run
    · cases run
    · exact exists_of_run_colon (readsValues_skip.map _) run

/-- The fields of a record written as a list are read up to the end of the list. -/
theorem Json.Shape.ends_of_elementsFrom {fields : List (Field σ)} (h : ∀ field ∈ fields, ∀ s, Json.ReadsValues (field.read s))
    {place : Nat} {s t : σ} (run : shape.elementsFrom place fields s cs = .ok (t, rest)) :
    Enclosure.list.Ends (place = 0) cs rest := by
  induction fields generalizing place s cs with
  | nil =>
    simp only [elementsFrom] at run
    split at run
    · cases run
    · rename_i closing
      cases run
      obtain ⟨pad, spaces, rfl⟩ := exists_of_run_mark closing
      exact spaces.ends .list (place = 0) rest
  | cons field fields ih =>
    obtain ⟨first, later⟩ := List.forall_mem_cons.1 h
    simp only [elementsFrom] at run
    split at run
    · cases run
    · rename_i hn
      split at run
      · cases run
      · cases run
        obtain ⟨pad, spaces, rfl⟩ := exists_of_nextElement_close hn
        exact spaces.ends .list (place = 0) rest
    · rename_i hn
      split at run
      · cases run
      · rename_i hr
        obtain ⟨pad, before, spaces, before_spaces, rfl⟩ := exists_of_nextElement_item hn
        obtain ⟨before', text, before_spaces', value, rfl⟩ := first _ hr
        have ends := (ih later run).element spaces (place = 0) (before_spaces.append before_spaces') value
        rwa [List.append_assoc] at ends

/-- A record is read from a value if its fields are. -/
theorem Json.Shape.ReadsValues.record (h : shape.ReadsValues) : Json.ReadsValues (record shape) := by
  refine ReadsValues.check (readsValues_byFirst ?_) shape.finish
  intro c cs t rest run
  split at run
  · rename_i isObject
    obtain ⟨more, value, rfl⟩ := (h.readsMembers.ends run).exists_value
    rw [isObject]
    exact value.valueThen rest
  split at run
  · rename_i isList
    obtain ⟨more, value, rfl⟩ := (ends_of_elementsFrom h run).exists_value
    rw [isList]
    exact value.valueThen rest
  · cases run

/-! ## Words -/

/-- A word as the only key of an object is read up to the end of the object. -/
theorem Json.ends_of_run_wordAsKey {words : List (String × α)} {a : α} (run : (wordAsKey words).run cs = .ok (a, rest)) :
    Enclosure.object.Ends true cs rest := by
  simp only [wordAsKey, run_andThen_iff, run_check_iff, run_map_iff] at run
  obtain ⟨_, _, ⟨name, key, -⟩, _, _, colon, _, _, null, _, closing, -⟩ := run
  obtain ⟨before, spelling, spaces, chars, rfl⟩ := exists_of_run_quoted key
  obtain ⟨gap, gap_spaces, rfl⟩ := exists_of_run_mark colon
  obtain ⟨before', text, before_spaces', value, rfl⟩ := readsValues_unit null
  obtain ⟨behind, behind_spaces, rfl⟩ := exists_of_run_mark closing
  have leads : Enclosure.object.Leads (before ++ '"' :: (spelling ++ '"' :: (gap ++ [':']))) :=
    ⟨spelling, chars, before, gap, spaces, gap_spaces, rfl⟩
  have ends := (behind_spaces.ends .object false rest).item .nil true leads before_spaces' value
  simpa [front, Enclosure.closing] using ends

/-- A word is a value, whether it is a string or the only key of an object. -/
theorem Json.readsValues_word (words : List (String × α)) : ReadsValues (word words) := by
  refine readsValues_byFirst ?_
  intro c cs a rest run
  split at run
  · exact (readsValues_quoted _).check _ run
  split at run
  · rename_i isObject
    obtain ⟨more, value, rfl⟩ := (ends_of_run_wordAsKey run).exists_value
    rw [isObject]
    exact value.valueThen rest
  · cases run

end

/-! ## Requests -/

/-- A term takes a value from the text. -/
theorem Term.readsValues_decoder : Json.ReadsValues Term.decoder := by
  refine Json.Shape.ReadsValues.record ?_
  intro field hf p
  simp only [shape, List.mem_cons, List.not_mem_nil, or_false] at hf
  rcases hf with rfl | rfl | rfl <;> exact (Json.readsValues_quoted _).map _

/-- An AND-group takes a value from the text. -/
theorem Draft.readsValues_groupDecoder : Json.ReadsValues Draft.groupDecoder := by
  refine Json.Shape.ReadsValues.record ?_
  intro field hf p
  simp only [groupShape, List.mem_cons, List.not_mem_nil, or_false] at hf
  rcases hf with rfl | rfl
  · exact (Json.readsValues_word _).map _
  · exact Term.readsValues_decoder.list.map _

/-- A request takes a value from the text. -/
theorem Request.readsValues_decoder : Json.ReadsValues Request.decoder := by
  refine Json.Shape.ReadsValues.record ?_
  intro field hf p
  simp only [shape, List.mem_cons, List.not_mem_nil, or_false] at hf
  rcases hf with rfl | rfl
  · exact (Json.readsValues_word _).map _
  · exact Draft.readsValues_groupDecoder.list.orNull.map _

/-! ## Whole texts -/

/-- Nothing is left behind white space exactly if a text is nothing else. -/
theorem Json.skipSpace_eq_nil_iff {cs : List Char} : skipSpace cs = [] ↔ Spaces cs := List.dropWhile_eq_nil_iff

/-- A whole text is read if nothing but white space is left behind what is read. -/
theorem Json.readAll_eq_ok_iff {r : Json.Decoder α} {text : String} {a : α} :
    readAll r text = .ok a ↔ ∃ rest, Spaces rest ∧ r.run text.toList = .ok (a, rest) := by
  unfold readAll
  cases run : r.run text.toList with
  | error fault => simp
  | ok read =>
    obtain ⟨b, rest⟩ := read
    by_cases spaces : Spaces rest
    · have nothing := skipSpace_eq_nil_iff.2 spaces
      simp only [nothing, List.isEmpty_nil, if_true, Except.ok.injEq, Prod.mk.injEq]
      constructor
      · rintro rfl
        exact ⟨rest, spaces, rfl, rfl⟩
      · rintro ⟨_, -, same, -⟩
        exact same
    · have something : (skipSpace rest).isEmpty = false := by
        rw [List.isEmpty_eq_false_iff]
        exact fun nothing => spaces (skipSpace_eq_nil_iff.1 nothing)
      simp only [something, Except.ok.injEq, Prod.mk.injEq]
      simp only [Bool.false_eq_true, if_false, reduceCtorEq, false_iff]
      rintro ⟨_, more, -, rfl⟩
      exact spaces more

/-- A text that is read is a value with white space around it. -/
theorem Json.ReadsValues.exists_value {r : Json.Decoder α} (h : ReadsValues r) {text : String} {a : α}
    (read : readAll r text = .ok a) :
    ∃ before value behind, Spaces before ∧ Spaces behind ∧ Value value ∧ text = String.ofList (before ++ (value ++ behind)) := by
  obtain ⟨behind, behind_spaces, run⟩ := readAll_eq_ok_iff.1 read
  obtain ⟨before, value, spaces, isValue, same⟩ := h run
  exact ⟨before, value, behind, spaces, behind_spaces, isValue, by rw [← same, String.ofList_toList]⟩

end GateRules
