import GateRules.Proofs.Values
import Mathlib.Data.List.Forall2

/-!
# What a value stands for

A value is read as a whole or not at all, and what it is read as does not depend on where it stands: not on the white space in
front of it, nor on what is behind it (`Json.Uniform`). So one can say what a text stands for to a reader without saying what is
around the text (`Json.StandsFor`), and for every reader of single values, words and lists there is a rule that tells what a text
stands for by what its parts stand for (`Json.Means`).
-/

namespace GateRules

/-! ## Texts and what they stand for -/

/-- A text is read as this value wherever a value may stand. -/
def Json.StandsFor (r : Json.Decoder α) (text : List Char) (a : α) : Prop :=
  ∀ before rest, Spaces before → Follows rest → r.run (before ++ (text ++ rest)) = .ok (a, rest)

/-- A text is read as a whole if it is read at all, and what it is read as is told by `stands`, wherever the text stands. -/
def Json.Means (r : Json.Decoder α) (text : List Char) (stands : α → Prop) : Prop :=
  ∀ before rest a rest', Spaces before → Follows rest →
    (r.run (before ++ (text ++ rest)) = .ok (a, rest') ↔ rest' = rest ∧ stands a)

/-- Every value means the same to a reader wherever it stands. -/
def Json.Uniform (r : Json.Decoder α) : Prop := ∀ text, Value text → ∃ stands, Means r text stands

/-- What a text stands for is what it means. -/
theorem Json.Means.standsFor_iff {r : Json.Decoder α} {text : List Char} {stands : α → Prop} (h : Means r text stands)
    (a : α) : StandsFor r text a ↔ stands a := by
  constructor
  · intro run
    have nothing : Follows [] := Spaces.nil.follows
    exact ((h [] [] a [] .nil nothing).1 (run [] [] .nil nothing)).2
  · intro ha before rest spaces follows
    exact (h before rest a rest spaces follows).2 ⟨rfl, ha⟩

/-- What a value means to such a reader is what it stands for. -/
theorem Json.Uniform.means {r : Json.Decoder α} (h : Uniform r) {text : List Char} (value : Value text) :
    Means r text (StandsFor r text) := by
  obtain ⟨stands, means⟩ := h text value
  intro before rest a rest' spaces follows
  rw [means.standsFor_iff]
  exact means before rest a rest' spaces follows

/-! ## Readers made of readers -/

theorem Json.run_map_iff {r : Json.Decoder α} {f : α → β} {cs rest : List Char} {b : β} :
    (r.map f).run cs = .ok (b, rest) ↔ ∃ a, r.run cs = .ok (a, rest) ∧ f a = b := Reader.mapValue_eq_ok_iff

/-- A text means what the function makes of its meaning. -/
theorem Json.Means.map {r : Json.Decoder α} {text : List Char} {stands : α → Prop} (h : Means r text stands) (f : α → β) :
    Means (r.map f) text fun b => ∃ a, stands a ∧ f a = b := by
  intro before rest b rest' spaces follows
  simp only [run_map_iff, h _ _ _ _ spaces follows]
  constructor
  · rintro ⟨a, ⟨rfl, ha⟩, hb⟩
    exact ⟨rfl, a, ha, hb⟩
  · rintro ⟨rfl, a, ha, hb⟩
    exact ⟨a, ⟨rfl, ha⟩, hb⟩

/-- A function changes nothing about where a value may stand. -/
theorem Json.Uniform.map {r : Json.Decoder α} (h : Uniform r) (f : α → β) : Uniform (r.map f) := by
  intro text value
  exact ⟨_, (h.means value).map f⟩

/-- What is read and then put through a function stands for what the function gives. -/
theorem Json.Uniform.standsFor_map {r : Json.Decoder α} (h : Uniform r) {text : List Char} (value : Value text) {f : α → β}
    {b : β} : StandsFor (r.map f) text b ↔ ∃ a, StandsFor r text a ∧ f a = b :=
  ((h.means value).map f).standsFor_iff b

/-- A reader with a check reads what passes the check. -/
theorem Json.run_check_iff {r : Json.Decoder α} {f : α → Except Misfit β} {cs rest : List Char} {b : β} :
    (check r f).run cs = .ok (b, rest) ↔ ∃ a, r.run cs = .ok (a, rest) ∧ f a = .ok b := by
  constructor
  · intro h
    simp only [check, Reader.refine] at h
    split at h
    · cases h
    · rename_i a after run
      split at h
      · cases h
      · rename_i b' hb
        cases h
        cases hf : f a with
        | error misfit =>
          rw [hf] at hb
          cases hb
        | ok b' =>
          rw [hf] at hb
          cases hb
          exact ⟨a, run, hf⟩
  · rintro ⟨a, run, hf⟩
    exact run_check_ok run hf

/-- A text means what the check makes of its meaning, if it passes. -/
theorem Json.Means.check {r : Json.Decoder α} {text : List Char} {stands : α → Prop} (h : Means r text stands)
    (f : α → Except Misfit β) : Means (check r f) text fun b => ∃ a, stands a ∧ f a = .ok b := by
  intro before rest b rest' spaces follows
  simp only [run_check_iff, h _ _ _ _ spaces follows]
  constructor
  · rintro ⟨a, ⟨rfl, ha⟩, hb⟩
    exact ⟨rfl, a, ha, hb⟩
  · rintro ⟨rfl, a, ha, hb⟩
    exact ⟨a, ⟨rfl, ha⟩, hb⟩

/-- A value that is passed over stands for nothing in particular. -/
theorem Json.means_skip {text : List Char} (value : Value text) : Means skip text fun _ => True := by
  intro before rest a rest' spaces follows
  have skipped : skipValue [] (before ++ (text ++ rest)) = .ok rest := by
    rw [spaces.skipValue_append, value.skipValue_append [] follows, skipAfter]
  simp only [skip, skipped]
  simp [eq_comm]

/-! ## Readers that go by the first character -/

/-- White space in front is passed over before a reader goes by the first character. -/
theorem Json.Spaces.run_byFirst {before : List Char} (h : Spaces before) {c : Char} (space : isSpace c = false)
    (read : Char → List Char → Except Fault (α × List Char))
    (length_le : ∀ {c cs a rest}, read c cs = .ok (a, rest) → rest.length ≤ cs.length) (rest : List Char) :
    (byFirst read @length_le).run (before ++ c :: rest) = read c rest := by
  have here : skipSpace (before ++ c :: rest) = c :: rest := by rw [h.skipSpace_append, skipSpace_cons space]
  simp only [byFirst, Reader.byFirst, here]

/-- What a text means to a reader that goes by the first character. -/
theorem Json.means_byFirst {read : Char → List Char → Except Fault (α × List Char)}
    {length_le : ∀ {c cs a rest}, read c cs = .ok (a, rest) → rest.length ≤ cs.length} {c : Char} (space : isSpace c = false)
    {more : List Char} {stands : α → Prop} (h : ∀ rest a rest', Follows rest →
      (read c (more ++ rest) = .ok (a, rest') ↔ rest' = rest ∧ stands a)) :
    Means (byFirst read @length_le) (c :: more) stands := by
  intro before rest a rest' spaces follows
  rw [List.cons_append, spaces.run_byFirst space]
  exact h rest a rest' follows

/-- A text that a reader refuses by its first character stands for nothing. -/
theorem Json.means_of_refused {read : Char → List Char → Except Fault (α × List Char)}
    {length_le : ∀ {c cs a rest}, read c cs = .ok (a, rest) → rest.length ≤ cs.length} {c : Char} (space : isSpace c = false)
    {more : List Char} (h : ∀ rest, ∃ fault, read c rest = .error fault) :
    Means (byFirst read @length_le) (c :: more) fun _ => False := by
  refine means_byFirst space ?_
  intro rest a rest' follows
  obtain ⟨fault, refused⟩ := h (more ++ rest)
  rw [refused]
  simp

/-- What a value is, going by its first character. -/
inductive Json.Value.Started : Char → List Char → Prop
  | null : Started 'n' ['u', 'l', 'l']
  | string {chars : List Char} (h : Chars chars) : Started '"' (chars ++ ['"'])
  | list {pad : List Char} {items : List Item} (spaces : Spaces pad) (elements : ∀ i ∈ items, i.WellFormed .list) :
      Started '[' (Enclosure.list.inside pad items)
  | object {pad : List Char} {items : List Item} (spaces : Spaces pad) (members : ∀ i ∈ items, i.WellFormed .object) :
      Started '\x7b' (Enclosure.object.inside pad items)
  | other {c : Char} {more : List Char} (h : c ∉ ['n', '"', '[', '\x7b']) : Started c more

/-- The first character of a value tells which kind of value it is. -/
theorem Json.Value.started {c : Char} {more : List Char} (h : Value (c :: more)) : Started c more := by
  generalize hc : c :: more = text at h
  cases h with
  | nullWord =>
    cases hc
    exact .null
  | trueWord =>
    cases hc
    exact .other (by decide)
  | falseWord =>
    cases hc
    exact .other (by decide)
  | string chars =>
    cases hc
    exact .string chars
  | number signed hw hf he =>
    rcases signed with rfl | rfl
    · obtain ⟨d, more, rfl, digit⟩ := hw.starts
      cases hc
      refine .other ?_
      intro mark
      simp only [List.mem_cons, List.not_mem_nil, or_false] at mark
      rcases mark with rfl | rfl | rfl | rfl <;> cases digit
    · cases hc
      exact .other (by decide)
  | @enclosure e pad items spaces shaped values =>
    cases e with
    | list =>
      cases hc
      exact .list spaces fun i hi => ⟨shaped i hi, values i hi⟩
    | object =>
      cases hc
      exact .object spaces fun i hi => ⟨shaped i hi, values i hi⟩

/-- How a reader that goes by the first character reads values: it has to be told for `null`, for strings and for enclosures, if
it refuses everything else. -/
theorem Json.uniform_byFirst {read : Char → List Char → Except Fault (α × List Char)}
    {length_le : ∀ {c cs a rest}, read c cs = .ok (a, rest) → rest.length ≤ cs.length}
    (h : ∀ c more, Value.Started c more → isSpace c = false → ∃ stands, Means (byFirst read @length_le) (c :: more) stands) :
    Uniform (byFirst read @length_le) := by
  intro text value
  obtain ⟨c, more, rfl, space, -⟩ := value.starts
  exact h c more value.started space

/-! ## Strings and words -/

/-- Behind an opening quote, what is spelt up to the closing one is read. -/
theorem Json.Chars.read_iff {chars : List Char} (h : Chars chars) {rest rest' : List Char} {text : String} :
    Reader.mapValue String.ofList (readString (chars ++ '"' :: rest)) = .ok (text, rest') ↔
      rest' = rest ∧ Spells chars text.toList := by
  rw [Reader.mapValue_eq_ok_iff]
  constructor
  · rintro ⟨read, h', rfl⟩
    obtain ⟨spelling, same, spells⟩ := readString_eq_ok_iff.1 h'
    obtain ⟨rfl, rfl⟩ := h.end_unique spells.chars same
    exact ⟨rfl, by rwa [String.toList_ofList]⟩
  · rintro ⟨rfl, spells⟩
    exact ⟨_, readString_eq_ok_iff.2 ⟨chars, rfl, spells⟩, String.ofList_toList⟩

/-- A string stands for the text that is spelt between its quotes. -/
theorem Json.means_quoted (otherwise : Char → List Char → Fault) {chars : List Char} (h : Chars chars) :
    Means (quoted otherwise) ('"' :: (chars ++ ['"'])) fun text => Spells chars text.toList := by
  refine means_byFirst rfl ?_
  intro rest text rest' _
  rw [if_pos rfl, List.append_assoc]
  exact h.read_iff

/-- A string means the same wherever it stands, and any other value is refused everywhere. -/
theorem Json.uniform_quoted (otherwise : Char → List Char → Fault) : Uniform (quoted otherwise) := by
  refine uniform_byFirst ?_
  intro c more started space
  by_cases hc : c = '"'
  · subst hc
    cases started with
    | string h => exact ⟨_, means_quoted otherwise h⟩
    | other h => exact absurd (by decide) h
  · refine ⟨_, means_of_refused space ?_⟩
    intro rest
    exact ⟨_, if_neg hc⟩

theorem Json.readWord_append (word rest : List Char) : readWord word (word ++ rest) = .ok rest := by
  induction word with
  | nil => rfl
  | cons w word ih => rw [List.cons_append, readWord, if_pos rfl, ih]

theorem Json.means_unit_null : Means unit ['n', 'u', 'l', 'l'] fun _ => True := by
  refine means_byFirst rfl ?_
  intro rest a rest' _
  rw [if_pos rfl, readWord_append ['u', 'l', 'l']]
  simp [Except.map, eq_comm]

/-- The word `null` is read wherever it stands, and any other value is refused everywhere. -/
theorem Json.uniform_unit : Uniform unit := by
  refine uniform_byFirst ?_
  intro c more started space
  by_cases hc : c = 'n'
  · subst hc
    cases started with
    | null => exact ⟨_, means_unit_null⟩
    | other h => exact absurd (by decide) h
  · refine ⟨_, means_of_refused space ?_⟩
    intro rest
    exact ⟨_, if_neg hc⟩

/-- Where a value may be `null`, any other value stands for what it stands for otherwise. -/
theorem Json.Means.orNull {r : Json.Decoder α} {c : Char} (space : isSpace c = false) (notNull : c ≠ 'n') {more : List Char}
    {stands : α → Prop} (h : Means r (c :: more) stands) : Means (orNull r) (c :: more) fun b => ∃ a, stands a ∧ some a = b := by
  refine means_byFirst space ?_
  intro rest b rest' follows
  have means := fun a => h [] rest a rest' .nil follows
  rw [List.nil_append, List.cons_append] at means
  rw [if_neg notNull, Reader.mapValue_eq_ok_iff]
  simp only [means]
  constructor
  · rintro ⟨a, ⟨rfl, ha⟩, hb⟩
    exact ⟨rfl, a, ha, hb⟩
  · rintro ⟨rfl, a, ha, hb⟩
    exact ⟨a, ⟨rfl, ha⟩, hb⟩

theorem Json.means_orNull_null (r : Json.Decoder α) : Means (orNull r) ['n', 'u', 'l', 'l'] fun a => a = none := by
  refine means_byFirst rfl ?_
  intro rest a rest' _
  rw [if_pos rfl, readWord_append ['u', 'l', 'l']]
  simp [Except.map, eq_comm, and_comm]

/-- What may be `null` means the same wherever it stands, if it does so otherwise. -/
theorem Json.Uniform.orNull {r : Json.Decoder α} (h : Uniform r) : Uniform (orNull r) := by
  intro text value
  obtain ⟨c, more, rfl, space, -⟩ := value.starts
  by_cases hc : c = 'n'
  · subst hc
    cases value.started with
    | null => exact ⟨_, means_orNull_null r⟩
    | other h => exact absurd (by decide) h
  · exact ⟨_, (h.means value).orNull space hc⟩

/-! ## Lists -/

/-- Elements are read exactly if the list ends, or an element is read and then the elements behind it. -/
theorem Json.elements_eq_ok_iff {r : Json.Decoder α} {isFirst : Bool} {cs rest : List Char} {as : List α} :
    elements r isFirst cs = .ok (as, rest) ↔ (nextElement isFirst cs = .ok (.close rest) ∧ as = []) ∨
      ∃ here a after more, nextElement isFirst cs = .ok (.item here) ∧ r.run here = .ok (a, after) ∧
        elements r false after = .ok (more, rest) ∧ as = a :: more := by
  constructor
  · intro h
    cases hn : nextElement isFirst cs with
    | error fault =>
      rw [elements] at h
      split at h <;> simp_all
    | ok next =>
      cases next with
      | close after =>
        rw [elements_of_close hn] at h
        cases h
        exact .inl ⟨rfl, rfl⟩
      | item here =>
        cases hr : r.run here with
        | error fault =>
          rw [elements] at h
          split at h <;> simp_all
          split at h <;> simp_all
        | ok read =>
          obtain ⟨a, after⟩ := read
          rw [elements_of_item hn hr] at h
          obtain ⟨more, hm, rfl⟩ := Reader.mapValue_eq_ok_iff.1 h
          exact .inr ⟨here, a, after, more, rfl, hr, hm, rfl⟩
  · rintro (⟨hn, rfl⟩ | ⟨here, a, after, more, hn, hr, hm, rfl⟩)
    · exact elements_of_close hn
    · rw [elements_of_item hn hr, hm, Reader.mapValue_ok]

/-- White space in front of an element, of a comma or of the end of a list makes no difference. -/
theorem Json.Spaces.nextElement_append {before : List Char} (h : Spaces before) (isFirst : Bool) (rest : List Char) :
    nextElement isFirst (before ++ rest) = nextElement isFirst rest := by
  simp only [nextElement, h.skipSpace_append]

/-- A value may stand first in a list. -/
theorem Json.Value.nextElement_first {text : List Char} (value : Value text) (rest : List Char) :
    nextElement true (text ++ rest) = .ok (.item (text ++ rest)) := by
  obtain ⟨c, more, rfl, space, mark⟩ := value.starts
  have notClosing : c ≠ ']' := by
    rintro rfl
    exact mark (by decide)
  rw [nextElement, List.cons_append, skipSpace_cons space]
  simp only [if_neg notClosing, if_true]

/-- A value may stand behind a comma in a list. -/
theorem Json.Value.nextElement_later {text : List Char} (value : Value text) {before : List Char} (spaces : Spaces before)
    (rest : List Char) : nextElement false (',' :: (before ++ (text ++ rest))) = .ok (.item (text ++ rest)) := by
  obtain ⟨c, more, rfl, space, mark⟩ := value.starts
  have notClosing : c ≠ ']' := by
    rintro rfl
    exact mark (by decide)
  have here : skipSpace (before ++ (c :: more ++ rest)) = c :: (more ++ rest) := by
    rw [spaces.skipSpace_append, List.cons_append, skipSpace_cons space]
  rw [nextElement, skipSpace_cons rfl]
  simp only [here, if_neg notClosing]
  rfl

section

variable {r : Json.Decoder α} {items : List Json.Item}

/-- An element is read, and then the elements behind it. -/
theorem Json.Uniform.elements_item (uniform : Uniform r) {i : Item} (first : i.WellFormed .list) {isFirst : Bool}
    {cs rest rest' : List Char}
    (here : nextElement isFirst cs = .ok (.item (i.value ++ (i.behind ++ Enclosure.list.remainder items rest))))
    (later : ∀ more, elements r false (i.behind ++ Enclosure.list.remainder items rest) = .ok (more, rest') ↔
      rest' = rest ∧ List.Forall₂ (fun i a => StandsFor r i.value a) items more) (as : List α) :
    elements r isFirst cs = .ok (as, rest') ↔
      rest' = rest ∧ List.Forall₂ (fun i a => StandsFor r i.value a) (i :: items) as := by
  have follows := (Enclosure.list.follows_remainder items rest).append first.behind
  have means := fun a after => uniform.means first.isValue [] _ a after .nil follows
  simp only [List.nil_append] at means
  rw [elements_eq_ok_iff, here]
  simp only [Except.ok.injEq, reduceCtorEq, false_and, false_or, Next.item.injEq, List.forall₂_cons_left_iff]
  constructor
  · rintro ⟨_, a, after, more, rfl, run, rest, has⟩
    obtain ⟨rfl, ha⟩ := (means a after).1 run
    obtain ⟨same, all⟩ := (later more).1 rest
    exact ⟨same, a, more, ha, all, has⟩
  · rintro ⟨same, a, more, ha, all, has⟩
    exact ⟨_, a, _, more, rfl, (means a _).2 ⟨rfl, ha⟩, (later more).2 ⟨same, all⟩, has⟩

/-- A list that is closed has no more elements. -/
theorem Json.Spaces.elements_closing {before : List Char} (h : Spaces before) (isFirst : Bool) (rest : List Char) :
    elements r isFirst (before ++ ']' :: rest) = .ok ([], rest) := by
  refine elements_of_close ?_
  rw [h.nextElement_append]
  rfl

/-- Behind an element, the other elements are read one by one. -/
theorem Json.Uniform.elements_remainder (uniform : Uniform r) (wellFormed : ∀ i ∈ items, i.WellFormed .list)
    {behind : List Char} (spaces : Spaces behind) {rest rest' : List Char} (as : List α) :
    elements r false (behind ++ Enclosure.list.remainder items rest) = .ok (as, rest') ↔
      rest' = rest ∧ List.Forall₂ (fun i a => StandsFor r i.value a) items as := by
  induction items generalizing behind as with
  | nil =>
    have closed : elements r false (behind ++ Enclosure.list.remainder [] rest) = .ok ([], rest) :=
      spaces.elements_closing false rest
    rw [closed]
    simp [eq_comm, and_comm]
  | cons i items ih =>
    obtain ⟨first, more⟩ := List.forall_mem_cons.1 wellFormed
    have here : nextElement false (behind ++ Enclosure.list.remainder (i :: items) rest) =
        .ok (.item (i.value ++ (i.behind ++ Enclosure.list.remainder items rest))) := by
      rw [spaces.nextElement_append, Enclosure.remainder_cons, i.text_append, show i.lead = [] from first.lead]
      exact first.isValue.nextElement_later first.before _
    exact uniform.elements_item first here (ih more first.behind) as

/-- A list stands for the values that its elements stand for. -/
theorem Json.Uniform.means_list (uniform : Uniform r) {pad : List Char} (spaces : Spaces pad)
    (wellFormed : ∀ i ∈ items, i.WellFormed .list) :
    Means (list r) (Enclosure.list.text pad items) fun as => List.Forall₂ (fun i a => StandsFor r i.value a) items as := by
  refine means_byFirst (c := '[') rfl ?_
  intro rest as rest' _
  rw [if_pos rfl]
  cases items with
  | nil =>
    have closed : elements r true (pad ++ Enclosure.list.closing :: rest) = .ok ([], rest) :=
      spaces.elements_closing true rest
    rw [Enclosure.inside_nil_append, closed]
    simp [eq_comm, and_comm]
  | cons i items =>
    obtain ⟨first, more⟩ := List.forall_mem_cons.1 wellFormed
    have here : nextElement true (pad ++ (i.text ++ Enclosure.list.remainder items rest)) =
        .ok (.item (i.value ++ (i.behind ++ Enclosure.list.remainder items rest))) := by
      rw [spaces.nextElement_append, i.text_append, show i.lead = [] from first.lead, List.nil_append,
        first.before.nextElement_append]
      exact first.isValue.nextElement_first _
    rw [Enclosure.inside_cons_append]
    exact uniform.elements_item first here (uniform.elements_remainder more first.behind) as

/-- A list means the same wherever it stands, if its elements do. -/
theorem Json.Uniform.list (uniform : Uniform r) : Uniform (list r) := by
  refine uniform_byFirst ?_
  intro c more started space
  by_cases hc : c = '['
  · subst hc
    cases started with
    | list spaces elements => exact ⟨_, uniform.means_list spaces elements⟩
    | other h => exact absurd (by decide) h
  · refine ⟨_, means_of_refused space ?_⟩
    intro rest
    exact ⟨_, if_neg hc⟩

end

/-! ## Keys -/

/-- What leads to a value has one key only. -/
theorem Json.KeyLead.unique {key key' lead : List Char} (h : KeyLead key lead) (h' : KeyLead key' lead) (chars : Chars key)
    (chars' : Chars key') : key = key' := by
  obtain ⟨before, gap, spaces, -, rfl⟩ := h
  obtain ⟨before', gap', spaces', -, same⟩ := h'
  have quoted := congrArg skipSpace same
  rw [spaces.skipSpace_append, spaces'.skipSpace_append, skipSpace_cons rfl, skipSpace_cons rfl] at quoted
  exact (chars.end_unique chars' (List.cons.inj quoted).2).1

/-- The key of a member is read as this name. -/
def Json.Item.Named (i : Item) (name : String) : Prop := ∃ key, KeyLead key i.lead ∧ Spells key name.toList

/-- A member cut into its parts. -/
theorem Json.Item.Shaped.exists_key {i : Item} (h : i.Shaped .object) : ∃ before key gap, Spaces before ∧ Chars key ∧
    Spaces gap ∧ (∀ name, i.Named name ↔ Spells key name.toList) ∧ ∀ rest, i.text ++ rest =
      before ++ '"' :: (key ++ '"' :: (gap ++ ':' :: (i.before ++ (i.value ++ (i.behind ++ rest))))) := by
  obtain ⟨key, chars, lead⟩ := h.lead
  have named : ∀ name, i.Named name ↔ Spells key name.toList := by
    intro name
    constructor
    · rintro ⟨key', lead', spells⟩
      rwa [lead.unique lead' chars spells.chars]
    · intro spells
      exact ⟨key, lead, spells⟩
  obtain ⟨before, gap, spaces, spaces', hl⟩ := lead
  refine ⟨before, key, gap, spaces, chars, spaces', named, ?_⟩
  intro rest
  rw [i.text_append, hl]
  simp

/-- A member has one name. -/
theorem Json.Item.Named.unique {i : Item} {name name' : String} (h : i.Named name) (h' : i.Named name') : name = name' := by
  obtain ⟨key, lead, spells⟩ := h
  obtain ⟨key', lead', spells'⟩ := h'
  obtain rfl := lead.unique lead' spells.chars spells'.chars
  have read := readString_eq_ok_iff.2 ⟨key, (rfl : key ++ ['"'] = _), spells⟩
  rw [readString_eq_ok_iff.2 ⟨key, rfl, spells'⟩] at read
  exact (String.toList_injective (congrArg Prod.fst (Except.ok.inj read))).symm

/-- Two readers in a row read exactly if each of them does, the second where the first one ends. -/
theorem Json.run_andThen_iff {r : Json.Decoder α} {next : α → Json.Decoder β} {cs rest : List Char} {b : β} :
    (r.andThen next).run cs = .ok (b, rest) ↔ ∃ a after, r.run cs = .ok (a, after) ∧ (next a).run after = .ok (b, rest) := by
  cases h : r.run cs with
  | error fault =>
    rw [Reader.run_andThen_error h]
    simp
  | ok read =>
    obtain ⟨a, after⟩ := read
    rw [Reader.run_andThen_ok h]
    simp

/-- A key is read as the name that it spells. -/
theorem Json.Spaces.run_key {before key : List Char} (spaces : Spaces before) (chars : Chars key) {rest rest' : List Char}
    {name : String} : Json.key.run (before ++ '"' :: (key ++ '"' :: rest)) = .ok (name, rest') ↔
      rest' = rest ∧ Spells key name.toList := by
  rw [Json.key, quoted, spaces.run_byFirst rfl, if_pos rfl]
  exact chars.read_iff

/-- Behind an item, an enclosure is closed if there are no more items. -/
theorem Json.Enclosure.run_closing (e : Enclosure) {behind : List Char} (spaces : Spaces behind) {items : List Item}
    {rest rest' : List Char} :
    (mark e.closing).run (behind ++ e.remainder items rest) = .ok ((), rest') ↔ rest' = rest ∧ items = [] := by
  cases items with
  | nil =>
    rw [e.remainder_nil, spaces.run_mark e.closing e.isSpace_closing]
    simp [eq_comm]
  | cons i items =>
    have notClosing : ',' ≠ e.closing := by cases e <;> decide
    rw [e.remainder_cons, spaces.run_mark_of_ne rfl notClosing]
    simp

/-- A word as a key is a single member with the value `null`. -/
theorem Json.run_wordAsKey_iff (words : List (String × α)) {pad : List Char} (spaces : Spaces pad) {items : List Item}
    {i : Item} (first : i.WellFormed .object) {rest rest' : List Char} {a : α} :
    (wordAsKey words).run (pad ++ (i.text ++ Enclosure.object.remainder items rest)) = .ok (a, rest') ↔
      rest' = rest ∧ items = [] ∧ StandsFor unit i.value () ∧ ∃ name, i.Named name ∧ chosen words name = .ok a := by
  obtain ⟨before, key, gap, before_spaces, chars, gap_spaces, named, text⟩ := first.exists_key
  have follows := (Enclosure.object.follows_remainder items rest).append first.behind
  have colon := gap_spaces.run_mark ':' rfl (i.before ++ (i.value ++ (i.behind ++ Enclosure.object.remainder items rest)))
  have null := fun after => uniform_unit.means first.isValue i.before _ () after first.before follows
  have closing := @Enclosure.run_closing .object i.behind first.behind items rest rest'
  rw [text, ← List.append_assoc]
  simp only [wordAsKey, run_andThen_iff, run_check_iff, run_map_iff, (spaces.append before_spaces).run_key chars, named]
  constructor
  · rintro ⟨a', _, ⟨name, ⟨rfl, spells⟩, chosen⟩, _, after, colon', _, after', null', _, closing', rfl⟩
    rw [colon] at colon'
    cases colon'
    obtain ⟨rfl, stands⟩ := (null after').1 null'
    obtain ⟨same, single⟩ := closing.1 closing'
    exact ⟨same, single, stands, name, spells, chosen⟩
  · rintro ⟨same, single, stands, name, spells, chosen⟩
    exact ⟨a, _, ⟨name, ⟨rfl, spells⟩, chosen⟩, (), _, colon, (), _, (null _).2 ⟨rfl, stands⟩, (),
      closing.2 ⟨same, single⟩, rfl⟩

/-- An object without a member is no word. -/
theorem Json.Spaces.run_wordAsKey_closing {pad : List Char} (spaces : Spaces pad) (words : List (String × α))
    (rest : List Char) : (wordAsKey words).run (pad ++ Enclosure.object.closing :: rest) = .error .garbled := by
  have noKey : key.run (pad ++ Enclosure.object.closing :: rest) = .error .garbled := by
    rw [key, quoted, spaces.run_byFirst rfl, if_neg (by decide)]
  refine Reader.run_andThen_error ?_
  simp only [check, Reader.refine, noKey]

/-- A word stands for what it stands for among the words that may be chosen, be it a string or the key of an object. -/
theorem Json.uniform_word (words : List (String × α)) : Uniform (word words) := by
  refine uniform_byFirst ?_
  intro c more started space
  by_cases isString : c = '"'
  · subst isString
    cases started with
    | @string chars h =>
      refine ⟨fun a => ∃ name, Spells chars name.toList ∧ chosen words name = .ok a, means_byFirst rfl ?_⟩
      intro rest a rest' follows
      rw [if_pos rfl]
      exact ((means_quoted (mismatch .string) h).check (chosen words)) [] rest a rest' .nil follows
    | other h => exact absurd (by decide) h
  by_cases isObject : c = '\x7b'
  · subst isObject
    cases started with
    | @object pad items spaces members =>
      cases items with
      | nil =>
        refine ⟨fun _ => False, means_byFirst rfl ?_⟩
        intro rest a rest' _
        rw [if_neg (by decide), if_pos rfl, Enclosure.inside_nil_append, spaces.run_wordAsKey_closing]
        simp
      | cons i items =>
        obtain ⟨first, -⟩ := List.forall_mem_cons.1 members
        refine ⟨fun a => items = [] ∧ StandsFor unit i.value () ∧ ∃ name, i.Named name ∧ chosen words name = .ok a,
          means_byFirst rfl ?_⟩
        intro rest a rest' _
        rw [if_neg (by decide), if_pos rfl, Enclosure.inside_cons_append]
        exact run_wordAsKey_iff words spaces first
    | other h => exact absurd (by decide) h
  · refine ⟨_, means_of_refused space ?_⟩
    intro rest
    exact ⟨.garbled, (if_neg isString).trans (if_neg isObject)⟩

end GateRules
