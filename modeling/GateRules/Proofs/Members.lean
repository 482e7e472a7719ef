import GateRules.Json.Record
import GateRules.Proofs.Decoding

/-!
# What the members of a record add

A record is read member by member, and each of them adds to what was read so far (`Json.Shape.Adds`): a field that was not read
before puts its value into its place, and a member that is no field adds nothing. Written as a list, a record is read field by
field (`Json.Shape.Fills`). In either form a record is read for what its members or elements make of it, and for nothing else
(`Json.Shape.means_object`, `Json.Shape.means_list`).
-/

namespace GateRules

/-! ## Members -/

/-- Members are read exactly if the object ends, or a member is read and then the members behind it. -/
theorem Json.members_eq_ok_iff {member : σ → String → Json.Decoder σ} {isFirst : Bool} {s t : σ} {cs rest : List Char} :
    members member isFirst s cs = .ok (t, rest) ↔ (nextMember isFirst cs = .ok (.close rest) ∧ t = s) ∨
      ∃ here key after next after', nextMember isFirst cs = .ok (.item here) ∧ readString here = .ok (key, after) ∧
        (member s (String.ofList key)).run after = .ok (next, after') ∧
        members member false next after' = .ok (t, rest) := by
  constructor
  · intro h
    cases hn : nextMember isFirst cs with
    | error fault =>
      rw [members] at h
      split at h <;> simp_all
    | ok next =>
      cases next with
      | close after =>
        rw [members_of_close hn] at h
        cases h
        exact .inl ⟨rfl, rfl⟩
      | item here =>
        cases hk : readString here with
        | error fault =>
          rw [members] at h
          split at h <;> simp_all
          split at h <;> simp_all
        | ok read =>
          obtain ⟨key, after⟩ := read
          cases hr : (member s (String.ofList key)).run after with
          | error fault =>
            rw [members] at h
            split at h <;> simp_all
            split at h <;> simp_all
            split at h <;> simp_all
          | ok read =>
            obtain ⟨next, after'⟩ := read
            rw [members_of_item hn hk hr] at h
            exact .inr ⟨here, key, after, next, after', rfl, hk, hr, h⟩
  · rintro (⟨hn, rfl⟩ | ⟨here, key, after, next, after', hn, hk, hr, h⟩)
    · exact members_of_close hn
    · rw [members_of_item hn hk hr, h]

/-- White space in front of a member, of a comma or of the end of an object makes no difference. -/
theorem Json.Spaces.nextMember_append {before : List Char} (h : Spaces before) (isFirst : Bool) (rest : List Char) :
    nextMember isFirst (before ++ rest) = nextMember isFirst rest := by
  simp only [nextMember, h.skipSpace_append]

/-- A key may stand behind a comma. -/
theorem Json.Spaces.nextMember_later {before : List Char} (h : Spaces before) (rest : List Char) :
    nextMember false (',' :: (before ++ '"' :: rest)) = .ok (.item rest) := by
  have here : skipSpace (before ++ '"' :: rest) = '"' :: rest := by rw [h.skipSpace_append, skipSpace_cons rfl]
  rw [nextMember, skipSpace_cons rfl]
  simp only [here]
  rfl

section

variable {shape : Json.Shape σ α} {items : List Json.Item}

/-- What a member adds to what was read so far: the value of a field that was not read before, or nothing if it is no field of
the record and the record may have such members. -/
inductive Json.Shape.Adds (shape : Shape σ α) (s : σ) (i : Item) : σ → Prop
  | field {name : String} {field : Field σ} {next : σ} (named : i.Named name)
      (found : (shape.fields.find? fun f => f.name = name) = some field) (unread : field.isRead s = false)
      (stands : StandsFor (field.read s) i.value next) : Adds shape s i next
  | foreign {name : String} (named : i.Named name) (noField : (shape.fields.find? fun f => f.name = name) = none)
      (isOpen : shape.isClosed = false) : Adds shape s i s

/-- What members add one after the other. -/
inductive Json.Shape.Gathers (shape : Shape σ α) : σ → List Item → σ → Prop
  | nil {s : σ} : Gathers shape s [] s
  | cons {s next t : σ} {i : Item} {items : List Item} (first : shape.Adds s i next) (more : shape.Gathers next items t) :
      Gathers shape s (i :: items) t

/-- A member that is a field adds its value, if the field was not read before. -/
theorem Json.Shape.adds_iff_of_some {i : Item} {name : String} (named : i.Named name) {field : Field σ}
    (found : (shape.fields.find? fun f => f.name = name) = some field) {s next : σ} :
    shape.Adds s i next ↔ field.isRead s = false ∧ StandsFor (field.read s) i.value next := by
  constructor
  · intro h
    cases h with
    | field named' found' unread stands =>
      obtain rfl := named.unique named'
      cases found.symm.trans found'
      exact ⟨unread, stands⟩
    | foreign named' noField _ =>
      obtain rfl := named.unique named'
      cases found.symm.trans noField
  · rintro ⟨unread, stands⟩
    exact .field named found unread stands

/-- A member that is no field adds nothing, and only a closed record refuses it. -/
theorem Json.Shape.adds_iff_of_none {i : Item} {name : String} (named : i.Named name)
    (noField : (shape.fields.find? fun f => f.name = name) = none) {s next : σ} :
    shape.Adds s i next ↔ shape.isClosed = false ∧ next = s := by
  constructor
  · intro h
    cases h with
    | field named' found _ _ =>
      obtain rfl := named.unique named'
      cases noField.symm.trans found
    | foreign _ _ isOpen => exact ⟨isOpen, rfl⟩
  · rintro ⟨isOpen, rfl⟩
    exact .foreign named noField isOpen

/-- The value of a member that is no field leaves what was read so far as it is. -/
theorem Json.means_passed {text : List Char} (value : Value text) (s : σ) : Means (skip.map fun _ => s) text fun t => t = s := by
  intro before rest t rest' spaces follows
  rw [(means_skip value).map (fun _ => s) before rest t rest' spaces follows]
  simp [eq_comm]

/-- The values of all fields mean the same wherever they stand. -/
def Json.Shape.Uniform (shape : Shape σ α) : Prop := ∀ field ∈ shape.fields, ∀ s, Json.Uniform (field.read s)

/-- The value of a member is read for what the member adds. -/
theorem Json.Shape.Uniform.run_member (uniform : shape.Uniform) {i : Item} (before : Spaces i.before) (value : Value i.value)
    {name : String} (named : i.Named name) {gap : List Char} (spaces : Spaces gap) {rest rest' : List Char}
    (follows : Follows rest) {s next : σ} :
    (shape.member s name).run (gap ++ ':' :: (i.before ++ (i.value ++ rest))) = .ok (next, rest') ↔
      rest' = rest ∧ shape.Adds s i next := by
  have colon := spaces.run_mark ':' rfl (i.before ++ (i.value ++ rest))
  cases found : shape.fields.find? fun f => f.name = name with
  | some field =>
    have means := (uniform field (List.mem_of_find?_eq_some found) s).means value i.before rest next rest' before follows
    rw [adds_iff_of_some named found]
    cases unread : field.isRead s with
    | true => simp [member, found, unread, Reader.refuse]
    | false => simp [member, found, unread, Reader.run_andThen_ok colon, means]
  | none =>
    have means := means_passed value s i.before rest next rest' before follows
    rw [adds_iff_of_none named found]
    cases isOpen : shape.isClosed with
    | true => simp [member, found, isOpen, Reader.refuse]
    | false => simp [member, found, isOpen, Reader.run_andThen_ok colon, means]

/-- A member is read, and then the members behind it. -/
theorem Json.Shape.Uniform.members_item (uniform : shape.Uniform) {i : Item} (first : i.WellFormed .object)
    {key gap : List Char} (chars : Chars key) (spaces : Spaces gap) (named : ∀ name, i.Named name ↔ Spells key name.toList)
    {isFirst : Bool} {cs rest rest' : List Char}
    (here : nextMember isFirst cs = .ok (.item (key ++ '"' :: (gap ++ ':' :: (i.before ++ (i.value ++
      (i.behind ++ Enclosure.object.remainder items rest))))))) {s t : σ}
    (later : ∀ next, members shape.member false next (i.behind ++ Enclosure.object.remainder items rest) = .ok (t, rest') ↔
      rest' = rest ∧ shape.Gathers next items t) :
    members shape.member isFirst s cs = .ok (t, rest') ↔ rest' = rest ∧ shape.Gathers s (i :: items) t := by
  have follows := (Enclosure.object.follows_remainder items rest).append first.behind
  rw [members_eq_ok_iff, here]
  simp only [Except.ok.injEq, reduceCtorEq, false_and, false_or, Next.item.injEq]
  constructor
  · rintro ⟨_, text, after, next, after', rfl, read, run, rest⟩
    obtain ⟨spelling, same, spells⟩ := readString_eq_ok_iff.1 read
    obtain ⟨rfl, rfl⟩ := chars.end_unique spells.chars same
    have isNamed : i.Named (String.ofList text) := (named _).2 (by rwa [String.toList_ofList])
    obtain ⟨rfl, adds⟩ := (uniform.run_member first.before first.isValue isNamed spaces follows).1 run
    obtain ⟨same, gathers⟩ := (later next).1 rest
    exact ⟨same, .cons adds gathers⟩
  · rintro ⟨same, gathers⟩
    cases gathers with
    | @cons _ next _ _ _ adds gathers =>
      obtain ⟨name, isNamed⟩ : ∃ name, i.Named name := by
        cases adds with
        | field named _ _ _ => exact ⟨_, named⟩
        | foreign named _ _ => exact ⟨_, named⟩
      have run := (uniform.run_member first.before first.isValue isNamed spaces follows).2 ⟨rfl, adds⟩
      rw [← String.ofList_toList (s := name)] at run
      exact ⟨_, name.toList, _, next, _, rfl, readString_eq_ok_iff.2 ⟨key, rfl, (named name).1 isNamed⟩, run,
        (later next).2 ⟨same, gathers⟩⟩

/-- An object that is closed has no more members. -/
theorem Json.Spaces.members_closing {before : List Char} (h : Spaces before) {member : σ → String → Json.Decoder σ}
    (isFirst : Bool) (s : σ) (rest : List Char) : members member isFirst s (before ++ '\x7d' :: rest) = .ok (s, rest) := by
  refine members_of_close ?_
  rw [h.nextMember_append]
  rfl

theorem Json.Shape.gathers_nil_iff {s t : σ} : shape.Gathers s [] t ↔ t = s := by
  constructor
  · intro h
    cases h
    rfl
  · rintro rfl
    exact .nil

/-- Behind a member, the other members are read one by one. -/
theorem Json.Shape.Uniform.members_remainder (uniform : shape.Uniform) (wellFormed : ∀ i ∈ items, i.WellFormed .object)
    {behind : List Char} (spaces : Spaces behind) {rest rest' : List Char} {t : σ} (s : σ) :
    members shape.member false s (behind ++ Enclosure.object.remainder items rest) = .ok (t, rest') ↔
      rest' = rest ∧ shape.Gathers s items t := by
  induction items generalizing behind s with
  | nil =>
    have closed : members shape.member false s (behind ++ Enclosure.object.remainder [] rest) = .ok (s, rest) :=
      spaces.members_closing false s rest
    rw [closed, gathers_nil_iff]
    simp [eq_comm, and_comm]
  | cons i items ih =>
    obtain ⟨first, more⟩ := List.forall_mem_cons.1 wellFormed
    obtain ⟨before, key, gap, before_spaces, chars, gap_spaces, named, text⟩ := first.exists_key
    refine uniform.members_item first chars gap_spaces named ?_ (ih more first.behind)
    rw [spaces.nextMember_append, Enclosure.remainder_cons, text]
    exact before_spaces.nextMember_later _

/-! ## Elements -/

/-- What the elements of a list make of fields, one after the other. The fields that are left must be ones that may be missing. -/
inductive Json.Fills : List (Field σ) → σ → List Item → σ → Prop
  | done {fields : List (Field σ)} {s : σ} (optional : ∀ field ∈ fields, field.isOptional = true) : Fills fields s [] s
  | field {field : Field σ} {fields : List (Field σ)} {s next t : σ} {i : Item} {items : List Item}
      (stands : StandsFor (field.read s) i.value next) (more : Fills fields next items t) :
      Fills (field :: fields) s (i :: items) t

/-- Fields may be left without elements only if all of them may be missing. -/
theorem Json.fills_nil_iff {fields : List (Field σ)} {s t : σ} :
    Fills fields s [] t ↔ (∀ field ∈ fields, field.isOptional = true) ∧ t = s := by
  constructor
  · intro h
    cases h with
    | done optional => exact ⟨optional, rfl⟩
  · rintro ⟨optional, rfl⟩
    exact .done optional

/-- The first element goes to the first field, and the others to the fields behind it. -/
theorem Json.fills_cons_iff {field : Field σ} {fields : List (Field σ)} {s t : σ} {i : Item} {items : List Item} :
    Fills (field :: fields) s (i :: items) t ↔ ∃ next, StandsFor (field.read s) i.value next ∧ Fills fields next items t := by
  constructor
  · intro h
    cases h with
    | field stands more => exact ⟨_, stands, more⟩
  · rintro ⟨next, stands, more⟩
    exact .field stands more

/-- A list with more elements than a record has fields makes no record. -/
theorem Json.not_fills_nil_cons {s t : σ} {i : Item} {items : List Item} : ¬Fills [] s (i :: items) t := by
  intro h
  cases h

/-- A record without more elements is read if all fields that are left may be missing. -/
theorem Json.Shape.elementsFrom_closing {before : List Char} (spaces : Spaces before) (place : Nat) (fields : List (Field σ))
    {s t : σ} {rest rest' : List Char} :
    shape.elementsFrom place fields s (before ++ ']' :: rest) = .ok (t, rest') ↔ rest' = rest ∧ Fills fields s [] t := by
  rw [fills_nil_iff]
  have read (optional : ∀ field ∈ fields, field.isOptional = true) : (.ok (s, rest) : Except Fault _) = .ok (t, rest') ↔
      rest' = rest ∧ (∀ field ∈ fields, field.isOptional = true) ∧ t = s := by
    constructor
    · intro h
      cases h
      exact ⟨rfl, optional, rfl⟩
    · rintro ⟨rfl, -, rfl⟩
      rfl
  cases fields with
  | nil =>
    simp only [elementsFrom, spaces.run_mark ']' rfl]
    exact read fun field h => absurd h List.not_mem_nil
  | cons field fields =>
    have closed : nextElement (place = 0) (before ++ ']' :: rest) = .ok (.close rest) := by
      rw [spaces.nextElement_append]
      rfl
    simp only [elementsFrom, closed]
    cases missing : (field :: fields).findIdx? fun f => !f.isOptional with
    | some index =>
      have notOptional : ¬∀ f ∈ field :: fields, f.isOptional = true := by
        intro optional
        rw [List.findIdx?_eq_none_iff.2 fun f hf => by simp [optional f hf]] at missing
        cases missing
      simp only [reduceCtorEq, false_iff]
      exact fun h => notOptional h.2.1
    | none =>
      refine read ?_
      intro f hf
      simpa using List.findIdx?_eq_none_iff.1 missing f hf

/-- A field is read from an element, and then the fields behind it. -/
theorem Json.Shape.elementsFrom_item {field : Field σ} {fields : List (Field σ)} {s t : σ}
    (uniform : Json.Uniform (field.read s)) {i : Item} (first : i.WellFormed .list) {place : Nat} {cs rest rest' : List Char}
    (here : nextElement (place = 0) cs = .ok (.item (i.value ++ (i.behind ++ Enclosure.list.remainder items rest))))
    (later : ∀ next, shape.elementsFrom (place + 1) fields next (i.behind ++ Enclosure.list.remainder items rest) =
      .ok (t, rest') ↔ rest' = rest ∧ Fills fields next items t) :
    shape.elementsFrom place (field :: fields) s cs = .ok (t, rest') ↔
      rest' = rest ∧ Fills (field :: fields) s (i :: items) t := by
  have follows := (Enclosure.list.follows_remainder items rest).append first.behind
  have means := fun next after => uniform.means first.isValue [] _ next after .nil follows
  simp only [List.nil_append] at means
  rw [fills_cons_iff]
  simp only [elementsFrom, here]
  cases run : (field.read s).run (i.value ++ (i.behind ++ Enclosure.list.remainder items rest)) with
  | error fault =>
    simp only [reduceCtorEq, false_iff]
    rintro ⟨-, next, stands, -⟩
    rw [(means next _).2 ⟨rfl, stands⟩] at run
    cases run
  | ok read =>
    obtain ⟨next, after⟩ := read
    obtain ⟨rfl, stands⟩ := (means next after).1 run
    simp only [later]
    refine and_congr_right fun _ => ?_
    constructor
    · intro more
      exact ⟨next, stands, more⟩
    · rintro ⟨next', stands', more⟩
      rw [(means next' _).2 ⟨rfl, stands'⟩] at run
      cases run
      exact more

/-- Behind an element, the other fields are read one by one. -/
theorem Json.Shape.elementsFrom_remainder {fields : List (Field σ)}
    (uniform : ∀ field ∈ fields, ∀ s, Json.Uniform (field.read s)) (wellFormed : ∀ i ∈ items, i.WellFormed .list)
    {behind : List Char} (spaces : Spaces behind) (place : Nat) {rest rest' : List Char} {t : σ} (s : σ) :
    shape.elementsFrom (place + 1) fields s (behind ++ Enclosure.list.remainder items rest) = .ok (t, rest') ↔
      rest' = rest ∧ Fills fields s items t := by
  induction fields generalizing items behind place s with
  | nil =>
    cases items with
    | nil => exact elementsFrom_closing spaces (place + 1) []
    | cons i items =>
      rw [elementsFrom, Enclosure.remainder_cons, spaces.run_mark_of_ne rfl (by decide)]
      simp [not_fills_nil_cons]
  | cons field fields ih =>
    obtain ⟨first, later⟩ := List.forall_mem_cons.1 uniform
    cases items with
    | nil => exact elementsFrom_closing spaces (place + 1) (field :: fields)
    | cons i items =>
      obtain ⟨here, more⟩ := List.forall_mem_cons.1 wellFormed
      refine elementsFrom_item (first s) here ?_ (ih later more here.behind (place + 1))
      rw [spaces.nextElement_append, Enclosure.remainder_cons, i.text_append, show i.lead = [] from here.lead]
      exact here.isValue.nextElement_later here.before _

/-! ## Records -/

/-- A record written as an object is read for what its members make of it. -/
theorem Json.Shape.Uniform.means_object (uniform : shape.Uniform) {pad : List Char} (spaces : Spaces pad)
    (members : ∀ i ∈ items, i.WellFormed .object) :
    Means (record shape) (Enclosure.object.text pad items) fun a =>
      ∃ t, shape.Gathers shape.start items t ∧ shape.finish t = .ok a := by
  refine Means.check (means_byFirst (c := '\x7b') rfl ?_) shape.finish
  intro rest t rest' _
  rw [if_pos rfl]
  cases items with
  | nil =>
    have closed : Json.members shape.member true shape.start (pad ++ Enclosure.object.closing :: rest) = .ok (shape.start, rest) :=
      spaces.members_closing true shape.start rest
    rw [Enclosure.inside_nil_append, closed, gathers_nil_iff]
    simp [eq_comm, and_comm]
  | cons i items =>
    obtain ⟨first, more⟩ := List.forall_mem_cons.1 members
    obtain ⟨before, key, gap, before_spaces, chars, gap_spaces, named, text⟩ := first.exists_key
    rw [Enclosure.inside_cons_append]
    refine uniform.members_item first chars gap_spaces named ?_ (uniform.members_remainder more first.behind)
    rw [spaces.nextMember_append, text, before_spaces.nextMember_append]
    rfl

/-- A record written as a list is read for what its elements make of the fields. -/
theorem Json.Shape.Uniform.means_list (uniform : shape.Uniform) {pad : List Char} (spaces : Spaces pad)
    (elements : ∀ i ∈ items, i.WellFormed .list) :
    Means (record shape) (Enclosure.list.text pad items) fun a =>
      ∃ t, Fills shape.fields shape.start items t ∧ shape.finish t = .ok a := by
  refine Means.check (means_byFirst (c := '[') rfl ?_) shape.finish
  intro rest t rest' _
  rw [if_neg (by decide), if_pos rfl]
  cases items with
  | nil =>
    rw [Enclosure.inside_nil_append]
    exact elementsFrom_closing spaces 0 shape.fields
  | cons i items =>
    obtain ⟨first, more⟩ := List.forall_mem_cons.1 elements
    rw [Enclosure.inside_cons_append, i.text_append, show i.lead = [] from first.lead, List.nil_append]
    cases hf : shape.fields with
    | nil =>
      obtain ⟨c, _, hc, space, mark⟩ := first.isValue.starts
      have notClosing : c ≠ ']' := by
        rintro rfl
        exact mark (by decide)
      rw [elementsFrom, hc, ← List.append_assoc, List.cons_append, (spaces.append first.before).run_mark_of_ne space notClosing]
      simp [not_fills_nil_cons]
    | cons field fields =>
      have later := fun f h => uniform f (hf ▸ List.mem_cons_of_mem field h)
      refine elementsFrom_item (uniform field (hf ▸ List.mem_cons_self) shape.start) first ?_
        (elementsFrom_remainder later more first.behind 0)
      rw [spaces.nextElement_append, first.before.nextElement_append]
      exact first.isValue.nextElement_first _

/-- A record means the same wherever it stands if the values of its fields do. -/
theorem Json.Shape.Uniform.record (uniform : shape.Uniform) : Json.Uniform (record shape) := by
  intro text value
  obtain ⟨c, more, rfl, space, -⟩ := value.starts
  have refused (notObject : c ≠ '\x7b') (notList : c ≠ '[') : ∃ stands, Means (Json.record shape) (c :: more) stands := by
    refine ⟨_, Means.check (means_of_refused space ?_) shape.finish⟩
    intro rest
    exact ⟨_, (if_neg notObject).trans (if_neg notList)⟩
  cases value.started with
  | null => exact refused (by decide) (by decide)
  | string h => exact refused (by decide) (by decide)
  | list spaces elements => exact ⟨_, uniform.means_list spaces elements⟩
  | object spaces members => exact ⟨_, uniform.means_object spaces members⟩
  | other h =>
    refine refused ?_ ?_
    · rintro rfl
      exact h (by decide)
    · rintro rfl
      exact h (by decide)

end

end GateRules
