import GateRules.Admission
import GateRules.Proofs.Covering
import Mathlib.Logic.Relation

/-!
# The order of members, and members that are passed over

The members of an object may come in any order, and members that are no field may stand among them. What a record has of its
fields is put into places that do not depend on one another (`Json.Shape.Independent`), so two members may change places
(`Json.Shape.Independent.swap`), and a member that is no field adds nothing. A change deep inside of a request is carried up to
the whole by what lists and fields are read for (`Json.Keeps`).
-/

namespace GateRules

/-! ## Changes of a text -/

/-- The same member, perhaps with other white space around its key and its value. -/
def Json.Item.SameMember (i j : Item) : Prop := j.value = i.value ∧ ∃ key, Chars key ∧ KeyLead key i.lead ∧ KeyLead key j.lead

/-- An object with its members in another order, or with one more member, under a key that is none of these names, or with other
white space around its members. -/
inductive Json.Rearranged (names : List String) : List Char → List Char → Prop
  | permuted {pad : List Char} {items items' : List Item} (spaces : Spaces pad)
      (members : ∀ i ∈ items, i.WellFormed .object) (h : items.Perm items') :
      Rearranged names (Enclosure.object.text pad items) (Enclosure.object.text pad items')
  | inserted {pad : List Char} {before behind : List Item} {i : Item} {name : String} (spaces : Spaces pad)
      (members : ∀ j ∈ before ++ behind, j.WellFormed .object) (member : i.WellFormed .object) (named : i.Named name)
      (foreign : name ∉ names) :
      Rearranged names (Enclosure.object.text pad (before ++ behind)) (Enclosure.object.text pad (before ++ i :: behind))
  | spaced {pad pad' : List Char} {items items' : List Item} (spaces : Spaces pad) (spaces' : Spaces pad')
      (members : ∀ i ∈ items, i.WellFormed .object) (members' : ∀ i ∈ items', i.WellFormed .object)
      (same : List.Forall₂ Item.SameMember items items') :
      Rearranged names (Enclosure.object.text pad items) (Enclosure.object.text pad' items')

/-- A list with one of its elements changed. -/
inductive Json.InElement (change : List Char → List Char → Prop) : List Char → List Char → Prop
  | mk {pad : List Char} {before behind : List Item} {i : Item} {value : List Char} (spaces : Spaces pad)
      (elements : ∀ j ∈ before ++ i :: behind, j.WellFormed .list) (h : change i.value value) :
      InElement change (Enclosure.list.text pad (before ++ i :: behind))
        (Enclosure.list.text pad (before ++ { i with value := value } :: behind))

/-- A record with the value of one field changed: of the member with this name, or, if the record is written as a list, of the
element in this place. -/
inductive Json.InField (name : String) (place : Nat) (change : List Char → List Char → Prop) : List Char → List Char → Prop
  | member {pad : List Char} {before behind : List Item} {i : Item} {value : List Char} (spaces : Spaces pad)
      (members : ∀ j ∈ before ++ i :: behind, j.WellFormed .object) (named : i.Named name) (h : change i.value value) :
      InField name place change (Enclosure.object.text pad (before ++ i :: behind))
        (Enclosure.object.text pad (before ++ { i with value := value } :: behind))
  | element {pad : List Char} {before behind : List Item} {i : Item} {value : List Char} (spaces : Spaces pad)
      (elements : ∀ j ∈ before ++ i :: behind, j.WellFormed .list) (here : before.length = place) (h : change i.value value) :
      InField name place change (Enclosure.list.text pad (before ++ i :: behind))
        (Enclosure.list.text pad (before ++ { i with value := value } :: behind))

/-- The object of a term, rearranged. -/
def Term.Rearranged : List Char → List Char → Prop := Json.Rearranged ["field", "operator", "value"]

/-- The object of a group, rearranged, or a group with the object of one of its terms rearranged. -/
def Draft.RearrangedGroup (text text' : List Char) : Prop :=
  Json.Rearranged ["condition", "expressions"] text text' ∨
    Json.InField "expressions" 1 (Json.InElement Term.Rearranged) text text'

/-- The object of a request, rearranged, or a request with an object at any level in it rearranged. -/
def Request.Rearranged (text text' : List Char) : Prop :=
  Json.Rearranged ["condition", "rules"] text text' ∨
    Json.InField "rules" 1 (Json.InElement Draft.RearrangedGroup) text text'

/-! ## What changes keep -/

/-- A change of values that a reader does not see. -/
structure Json.Keeps (r : Json.Decoder α) (change : List Char → List Char → Prop) : Prop where
  values : ∀ {text text'}, change text text' → Value text ∧ Value text'
  stands : ∀ {text text' a}, change text text' → StandsFor r text a → StandsFor r text' a

theorem Json.Keeps.or {r : Json.Decoder α} {change change' : List Char → List Char → Prop} (h : Keeps r change)
    (h' : Keeps r change') : Keeps r fun text text' => change text text' ∨ change' text text' where
  values c := c.elim h.values h'.values
  stands c := c.elim h.stands h'.stands

theorem Json.Keeps.map {r : Json.Decoder α} {change : List Char → List Char → Prop} (uniform : Uniform r)
    (h : Keeps r change) (f : α → β) : Keeps (r.map f) change where
  values := h.values
  stands c := by
    obtain ⟨value, value'⟩ := h.values c
    rw [uniform.standsFor_map value, uniform.standsFor_map value']
    rintro ⟨a, ha, hb⟩
    exact ⟨a, h.stands c ha, hb⟩

/-- The items of an enclosure are still well formed when the value of one of them is changed. -/
theorem Json.wellFormed_changed {e : Enclosure} {before behind : List Item} {i : Item}
    (h : ∀ j ∈ before ++ i :: behind, j.WellFormed e) {value : List Char} (hv : Value value) :
    ∀ j ∈ before ++ { i with value := value } :: behind, j.WellFormed e := by
  intro j hj
  have kept : ∀ k, k ∈ before ∨ k ∈ behind → k.WellFormed e := by
    intro k hk
    refine h k ?_
    rcases hk with hk | hk
    · exact List.mem_append_left _ hk
    · exact List.mem_append_right _ (List.mem_cons_of_mem i hk)
  rcases List.mem_append.1 hj with hj | hj
  · exact kept j (.inl hj)
  · rcases List.mem_cons.1 hj with rfl | hj
    · have shaped := (h i (List.mem_append_right _ List.mem_cons_self)).toShaped
      exact ⟨⟨shaped.lead, shaped.before, shaped.behind⟩, hv⟩
    · exact kept j (.inr hj)

/-- One item in the middle may give way to another that stands for the same. -/
theorem Json.forall₂_changed {R : Item → α → Prop} {before behind : List Item} {i j : Item} (h : ∀ a, R i a → R j a)
    {as : List α} (all : List.Forall₂ R (before ++ i :: behind) as) : List.Forall₂ R (before ++ j :: behind) as := by
  induction before generalizing as with
  | nil =>
    obtain ⟨a, more, here, rest, rfl⟩ := List.forall₂_cons_left_iff.1 all
    exact .cons (h a here) rest
  | cons k before ih =>
    obtain ⟨a, more, here, rest, rfl⟩ := List.forall₂_cons_left_iff.1 all
    exact .cons here (ih rest)

/-- A change of an element that is not seen is not seen in the list. -/
theorem Json.Keeps.list {r : Json.Decoder α} {change : List Char → List Char → Prop} (uniform : Uniform r)
    (h : Keeps r change) : Keeps (list r) (InElement change) where
  values c := by
    obtain ⟨spaces, elements, here⟩ := c
    exact ⟨value_text spaces elements, value_text spaces (wellFormed_changed elements (h.values here).2)⟩
  stands c := by
    obtain ⟨spaces, elements, here⟩ := c
    have elements' := wellFormed_changed elements (h.values here).2
    rw [(uniform.means_list spaces elements).standsFor_iff, (uniform.means_list spaces elements').standsFor_iff]
    exact forall₂_changed fun a => h.stands here

/-! ## Fields that do not depend on one another -/

theorem Json.map_map (r : Json.Decoder α) (f : α → β) (g : β → γ) : (r.map f).map g = r.map fun a => g (f a) := by
  simp only [Reader.map, Reader.mk.injEq]
  funext cs
  cases r.run cs <;> rfl

/-- The place of a field in what was read so far. To fill it leaves all other fields as they are. -/
structure Json.Shape.Slot (shape : Shape σ α) (f : Field σ) (β : Type) where
  reader : Json.Decoder β
  put : σ → β → σ
  uniform : Json.Uniform reader
  read_eq : ∀ s, f.read s = reader.map (put s)
  isRead_put : ∀ s b, f.isRead (put s b) = true
  others : ∀ g ∈ shape.fields, g.name ≠ f.name → ∀ s b,
    g.isRead (put s b) = g.isRead s ∧ g.read (put s b) = (g.read s).map (put · b)

/-- A record may have members that are no field, and each of its fields has a place of its own. -/
structure Json.Shape.Independent (shape : Shape σ α) : Prop where
  isOpen : shape.isClosed = false
  slot : ∀ f ∈ shape.fields, ∃ β, Nonempty (shape.Slot f β)

section

variable {shape : Json.Shape σ α}

/-- Fields with places of their own mean the same wherever they stand. -/
theorem Json.Shape.Independent.uniform (h : shape.Independent) : shape.Uniform := by
  intro f hf s
  obtain ⟨β, ⟨slot⟩⟩ := h.slot f hf
  rw [slot.read_eq]
  exact slot.uniform.map _

/-- What is read of a field is put into its place. -/
theorem Json.Shape.Slot.stands_iff {f : Field σ} {β : Type} (slot : shape.Slot f β) {text : List Char} (value : Value text)
    {s t : σ} : StandsFor (f.read s) text t ↔ ∃ b, StandsFor slot.reader text b ∧ slot.put s b = t := by
  rw [slot.read_eq, slot.uniform.standsFor_map value]

/-- Two members may change places. -/
theorem Json.Shape.Independent.swap (h : shape.Independent) {i j : Item} (hi : Value i.value) (hj : Value j.value)
    {s next t : σ} (first : shape.Adds s i next) (second : shape.Adds next j t) :
    ∃ next', shape.Adds s j next' ∧ shape.Adds next' i t := by
  cases first with
  | foreign named noField isOpen => exact ⟨t, second, .foreign named noField isOpen⟩
  | @field name f _ named found unread stands =>
    cases second with
    | foreign named' noField isOpen => exact ⟨s, .foreign named' noField isOpen, .field named found unread stands⟩
    | @field name' g _ named' found' unread' stands' =>
      have hf := List.mem_of_find?_eq_some found
      have hg := List.mem_of_find?_eq_some found'
      have nameOf : f.name = name := by simpa using List.find?_some found
      have nameOf' : g.name = name' := by simpa using List.find?_some found'
      obtain ⟨β, ⟨slot⟩⟩ := h.slot f hf
      obtain ⟨γ, ⟨slot'⟩⟩ := h.slot g hg
      obtain ⟨b, hb, rfl⟩ := (slot.stands_iff hi).1 stands
      -- one field cannot be read twice, so the two members have different names
      have other : g.name ≠ f.name := by
        intro same
        rw [nameOf, nameOf'] at same
        subst same
        cases found.symm.trans found'
        rw [slot.isRead_put] at unread'
        cases unread'
      obtain ⟨isRead, read⟩ := slot.others g hg other s b
      rw [isRead] at unread'
      rw [read, (h.uniform g hg s).standsFor_map hj] at stands'
      obtain ⟨next', stands', rfl⟩ := stands'
      refine ⟨next', .field named' found' unread' stands', .field named found ?_ ?_⟩
      · obtain ⟨c, -, rfl⟩ := (slot'.stands_iff hj).1 stands'
        rw [(slot'.others f hf (Ne.symm other) s c).1, unread]
      · exact (slot.stands_iff hi).2 ⟨b, hb, rfl⟩

theorem Json.Shape.gathers_cons_iff {s t : σ} {i : Item} {items : List Item} :
    shape.Gathers s (i :: items) t ↔ ∃ next, shape.Adds s i next ∧ shape.Gathers next items t := by
  constructor
  · intro h
    cases h with
    | cons first more => exact ⟨_, first, more⟩
  · rintro ⟨next, first, more⟩
    exact .cons first more

/-- Members add the same in any order. -/
theorem Json.Shape.Independent.gathers_perm (h : shape.Independent) {items items' : List Item} (perm : items.Perm items')
    (values : ∀ i ∈ items, Value i.value) {s t : σ} (gathers : shape.Gathers s items t) : shape.Gathers s items' t := by
  induction perm generalizing s with
  | nil => exact gathers
  | cons i _ ih =>
    obtain ⟨next, first, more⟩ := gathers_cons_iff.1 gathers
    exact .cons first (ih (List.forall_mem_cons.1 values).2 more)
  | swap i j items =>
    obtain ⟨hj, values⟩ := List.forall_mem_cons.1 values
    obtain ⟨hi, -⟩ := List.forall_mem_cons.1 values
    obtain ⟨next, first, more⟩ := gathers_cons_iff.1 gathers
    obtain ⟨next', second, more⟩ := gathers_cons_iff.1 more
    obtain ⟨_, second, first⟩ := h.swap hj hi first second
    exact .cons second (.cons first more)
  | trans first second ih ih' =>
    exact ih' (fun i hi => values i (first.mem_iff.2 hi)) (ih values gathers)

/-- White space around a member makes no difference to what it adds. -/
theorem Json.Shape.Adds.same {s t : σ} {i j : Item} (h : shape.Adds s i t) (same : i.SameMember j) : shape.Adds s j t := by
  obtain ⟨sameValue, key, chars, lead, lead'⟩ := same
  have renamed : ∀ name, i.Named name → j.Named name := by
    rintro name ⟨key', lead'', spells⟩
    obtain rfl := lead.unique lead'' chars spells.chars
    exact ⟨key, lead', spells⟩
  cases h with
  | field named found unread stands => exact .field (renamed _ named) found unread (sameValue ▸ stands)
  | foreign named noField isOpen => exact .foreign (renamed _ named) noField isOpen

/-- Members gather the same if each gives way to one of the same name and meaning. -/
theorem Json.Shape.Gathers.same {s t : σ} {items items' : List Item} (h : shape.Gathers s items t)
    (same : List.Forall₂ Item.SameMember items items') : shape.Gathers s items' t := by
  induction same generalizing s with
  | nil => exact h
  | cons first _ ih =>
    obtain ⟨next, adds, more⟩ := gathers_cons_iff.1 h
    exact .cons (adds.same first) (ih more)

/-- A member that is no field adds nothing, wherever it stands. -/
theorem Json.Shape.gathers_inserted {before behind : List Item} {i : Item} (adds : ∀ s, shape.Adds s i s) {s t : σ}
    (gathers : shape.Gathers s (before ++ behind) t) : shape.Gathers s (before ++ i :: behind) t := by
  induction before generalizing s with
  | nil => exact .cons (adds s) gathers
  | cons j before ih =>
    obtain ⟨next, first, more⟩ := gathers_cons_iff.1 gathers
    exact .cons first (ih more)

/-- A member that adds what another one adds may stand in its place. -/
theorem Json.Shape.gathers_changed {before behind : List Item} {i j : Item} (h : ∀ s t, shape.Adds s i t → shape.Adds s j t)
    {s t : σ} (gathers : shape.Gathers s (before ++ i :: behind) t) : shape.Gathers s (before ++ j :: behind) t := by
  induction before generalizing s with
  | nil =>
    obtain ⟨next, first, more⟩ := gathers_cons_iff.1 gathers
    exact .cons (h s next first) more
  | cons k before ih =>
    obtain ⟨next, first, more⟩ := gathers_cons_iff.1 gathers
    exact .cons first (ih more)

/-- An element that makes of its field what another one makes of it may stand in its place. -/
theorem Json.fills_changed {before behind : List Item} {i j : Item} {f : Field σ}
    (h : ∀ s t, StandsFor (f.read s) i.value t → StandsFor (f.read s) j.value t) {fields : List (Field σ)}
    (here : fields[before.length]? = some f) {s t : σ} (fills : Fills fields s (before ++ i :: behind) t) :
    Fills fields s (before ++ j :: behind) t := by
  induction before generalizing fields s with
  | nil =>
    cases fields with
    | nil => cases here
    | cons g fields =>
      cases here
      obtain ⟨next, first, more⟩ := fills_cons_iff.1 fills
      exact .field (h s next first) more
  | cons k before ih =>
    cases fields with
    | nil => cases here
    | cons g fields =>
      obtain ⟨next, first, more⟩ := fills_cons_iff.1 fills
      exact .field first (ih here more)

end

/-! ## Changes that are not seen -/

/-- The members of an object with one more among them. -/
theorem Json.wellFormed_inserted {e : Enclosure} {before behind : List Item} {i : Item}
    (h : ∀ j ∈ before ++ behind, j.WellFormed e) (hi : i.WellFormed e) : ∀ j ∈ before ++ i :: behind, j.WellFormed e := by
  intro j hj
  rcases List.mem_append.1 hj with hj | hj
  · exact h j (List.mem_append_left _ hj)
  · rcases List.mem_cons.1 hj with rfl | hj
    · exact hi
    · exact h j (List.mem_append_right _ hj)

/-- A record is read the same when its object is rearranged. -/
theorem Json.Shape.Independent.keeps_rearranged {shape : Shape σ α} (h : shape.Independent) :
    Keeps (record shape) (Rearranged (shape.fields.map Field.name)) where
  values c := by
    cases c with
    | permuted spaces members perm =>
      exact ⟨value_text spaces members, value_text spaces fun i hi => members i (perm.mem_iff.2 hi)⟩
    | inserted spaces members member _ _ =>
      exact ⟨value_text spaces members, value_text spaces (wellFormed_inserted members member)⟩
    | spaced spaces spaces' members members' _ => exact ⟨value_text spaces members, value_text spaces' members'⟩
  stands c := by
    cases c with
    | permuted spaces members perm =>
      have members' := fun i hi => members i (perm.mem_iff.2 hi)
      rw [(h.uniform.means_object spaces members).standsFor_iff, (h.uniform.means_object spaces members').standsFor_iff]
      rintro ⟨t, gathers, finish⟩
      exact ⟨t, h.gathers_perm perm (fun i hi => (members i hi).isValue) gathers, finish⟩
    | @inserted _ _ _ _ name spaces members member named foreign =>
      have noField : (shape.fields.find? fun f => f.name = name) = none := by
        rw [List.find?_eq_none]
        intro f hf same
        exact foreign (List.mem_map.2 ⟨f, hf, by simpa using same⟩)
      rw [(h.uniform.means_object spaces members).standsFor_iff,
        (h.uniform.means_object spaces (wellFormed_inserted members member)).standsFor_iff]
      rintro ⟨t, gathers, finish⟩
      exact ⟨t, gathers_inserted (fun s => .foreign named noField h.isOpen) gathers, finish⟩
    | spaced spaces spaces' members members' same =>
      rw [(h.uniform.means_object spaces members).standsFor_iff, (h.uniform.means_object spaces' members').standsFor_iff]
      rintro ⟨t, gathers, finish⟩
      exact ⟨t, gathers.same same, finish⟩

/-- A change of the value of a field that is not seen is not seen in the record. -/
theorem Json.Shape.Uniform.keeps_inField {shape : Shape σ α} (uniform : shape.Uniform) {f : Field σ} {place : Nat}
    (found : (shape.fields.find? fun g => g.name = f.name) = some f) (here : shape.fields[place]? = some f)
    {change : List Char → List Char → Prop} (h : ∀ s, Keeps (f.read s) change) :
    Keeps (Json.record shape) (InField f.name place change) where
  values c := by
    cases c with
    | member spaces members _ changed =>
      have value := ((h shape.start).values changed).2
      exact ⟨value_text spaces members, value_text spaces (wellFormed_changed members value)⟩
    | element spaces elements _ changed =>
      have value := ((h shape.start).values changed).2
      exact ⟨value_text spaces elements, value_text spaces (wellFormed_changed elements value)⟩
  stands c := by
    cases c with
    | @member _ _ _ i value spaces members named changed =>
      have members' := wellFormed_changed members ((h shape.start).values changed).2
      have adds : ∀ s t, shape.Adds s i t → shape.Adds s { i with value := value } t := by
        intro s t added
        obtain ⟨unread, stands⟩ := (adds_iff_of_some named found).1 added
        exact .field named found unread ((h s).stands changed stands)
      rw [(uniform.means_object spaces members).standsFor_iff, (uniform.means_object spaces members').standsFor_iff]
      rintro ⟨t, gathers, finish⟩
      exact ⟨t, gathers_changed adds gathers, finish⟩
    | @element _ before _ i value spaces elements place changed =>
      have elements' := wellFormed_changed elements ((h shape.start).values changed).2
      have fills : ∀ s t, StandsFor (f.read s) i.value t → StandsFor (f.read s) value t := by
        intro s t stands
        exact (h s).stands changed stands
      rw [(uniform.means_list spaces elements).standsFor_iff, (uniform.means_list spaces elements').standsFor_iff]
      rintro ⟨t, filled, finish⟩
      exact ⟨t, fills_changed fills (place ▸ here) filled, finish⟩

/-- A change of a list that is not seen is not seen where `null` may stand for the list. -/
theorem Json.Keeps.orNull {r : Json.Decoder α} {change : List Char → List Char → Prop} (uniform : Uniform r)
    (h : Keeps r (InElement change)) : Keeps (orNull r) (InElement change) where
  values := h.values
  stands {_ _ b} c stands := by
    have kept := fun a => h.stands (a := a) c
    obtain ⟨value, value'⟩ := h.values c
    obtain ⟨spaces, elements, here⟩ := c
    have before := (uniform.means value).orNull (c := '[') rfl (by decide)
    have after := (uniform.means value').orNull (c := '[') rfl (by decide)
    obtain ⟨a, ha, hb⟩ := (before.standsFor_iff b).1 stands
    exact (after.standsFor_iff b).2 ⟨a, kept a ha, hb⟩

/-! ## Requests -/

/-- The three texts of a term have places of their own. -/
theorem Term.shape_independent : Term.shape.Independent where
  isOpen := rfl
  slot f hf := by
    simp only [shape, List.mem_cons, List.not_mem_nil, or_false] at hf
    rcases hf with rfl | rfl | rfl
    · refine ⟨String, ⟨⟨Json.string, fun p text => { p with field := some text }, Json.uniform_quoted _, fun _ => rfl,
        fun _ _ => rfl, ?_⟩⟩⟩
      intro g hg other p text
      simp only [shape, List.mem_cons, List.not_mem_nil, or_false] at hg
      rcases hg with rfl | rfl | rfl
      · exact absurd rfl other
      · exact ⟨rfl, by simp only [Json.map_map]⟩
      · exact ⟨rfl, by simp only [Json.map_map]⟩
    · refine ⟨String, ⟨⟨Json.string, fun p text => { p with operator := some text }, Json.uniform_quoted _, fun _ => rfl,
        fun _ _ => rfl, ?_⟩⟩⟩
      intro g hg other p text
      simp only [shape, List.mem_cons, List.not_mem_nil, or_false] at hg
      rcases hg with rfl | rfl | rfl
      · exact ⟨rfl, by simp only [Json.map_map]⟩
      · exact absurd rfl other
      · exact ⟨rfl, by simp only [Json.map_map]⟩
    · refine ⟨String, ⟨⟨Json.string, fun p text => { p with value := some text }, Json.uniform_quoted _, fun _ => rfl,
        fun _ _ => rfl, ?_⟩⟩⟩
      intro g hg other p text
      simp only [shape, List.mem_cons, List.not_mem_nil, or_false] at hg
      rcases hg with rfl | rfl | rfl
      · exact ⟨rfl, by simp only [Json.map_map]⟩
      · exact ⟨rfl, by simp only [Json.map_map]⟩
      · exact absurd rfl other

/-- A term means the same wherever it stands. -/
theorem Term.uniform_decoder : Json.Uniform Term.decoder := shape_independent.uniform.record

/-- The condition and the expressions of an AND-group have places of their own. -/
theorem Draft.groupShape_independent : Draft.groupShape.Independent where
  isOpen := rfl
  slot f hf := by
    simp only [groupShape, List.mem_cons, List.not_mem_nil, or_false] at hf
    rcases hf with rfl | rfl
    · refine ⟨Unit, ⟨⟨Json.word [("AND", ())], fun p word => { p with condition := some word }, Json.uniform_word _,
        fun _ => rfl, fun _ _ => rfl, ?_⟩⟩⟩
      intro g hg other p word
      simp only [groupShape, List.mem_cons, List.not_mem_nil, or_false] at hg
      rcases hg with rfl | rfl
      · exact absurd rfl other
      · exact ⟨rfl, by simp only [Json.map_map]⟩
    · refine ⟨List Term, ⟨⟨Json.list Term.decoder, fun p terms => { p with terms := some terms }, Term.uniform_decoder.list,
        fun _ => rfl, fun _ _ => rfl, ?_⟩⟩⟩
      intro g hg other p terms
      simp only [groupShape, List.mem_cons, List.not_mem_nil, or_false] at hg
      rcases hg with rfl | rfl
      · exact ⟨rfl, by simp only [Json.map_map]⟩
      · exact absurd rfl other

/-- A group means the same wherever it stands. -/
theorem Draft.uniform_groupDecoder : Json.Uniform Draft.groupDecoder := groupShape_independent.uniform.record

/-- The condition and the rules of a request have places of their own. -/
theorem Request.shape_independent : Request.shape.Independent where
  isOpen := rfl
  slot f hf := by
    simp only [shape, List.mem_cons, List.not_mem_nil, or_false] at hf
    rcases hf with rfl | rfl
    · refine ⟨Unit, ⟨⟨Json.word [("OR", ())], fun p word => { p with condition := some word }, Json.uniform_word _,
        fun _ => rfl, fun _ _ => rfl, ?_⟩⟩⟩
      intro g hg other p word
      simp only [shape, List.mem_cons, List.not_mem_nil, or_false] at hg
      rcases hg with rfl | rfl
      · exact absurd rfl other
      · exact ⟨rfl, by simp only [Json.map_map]⟩
    · refine ⟨Option Draft, ⟨⟨Json.orNull (Json.list Draft.groupDecoder), fun p rules => { p with rules := some rules },
        Draft.uniform_groupDecoder.list.orNull, fun _ => rfl, fun _ _ => rfl, ?_⟩⟩⟩
      intro g hg other p rules
      simp only [shape, List.mem_cons, List.not_mem_nil, or_false] at hg
      rcases hg with rfl | rfl
      · exact ⟨rfl, by simp only [Json.map_map]⟩
      · exact absurd rfl other

/-- A request means the same wherever it stands. -/
theorem Request.uniform_decoder : Json.Uniform Request.decoder := shape_independent.uniform.record

/-- A term is read the same when its members are rearranged. -/
theorem Term.keeps_rearranged : Json.Keeps Term.decoder Rearranged := shape_independent.keeps_rearranged

/-- An AND-group is read the same when its members or those of its terms are rearranged. -/
theorem Draft.keeps_rearranged : Json.Keeps Draft.groupDecoder RearrangedGroup := by
  have terms := Json.Keeps.list Term.uniform_decoder Term.keeps_rearranged
  refine groupShape_independent.keeps_rearranged.or ?_
  refine groupShape_independent.uniform.keeps_inField (f := groupShape.fields[1]) rfl rfl ?_
  intro p
  exact terms.map Term.uniform_decoder.list _

/-- A request is read the same when its members are rearranged, at any level. -/
theorem Request.keeps_rearranged : Json.Keeps Request.decoder Rearranged := by
  have groups := Json.Keeps.list Draft.uniform_groupDecoder Draft.keeps_rearranged
  refine shape_independent.keeps_rearranged.or ?_
  refine shape_independent.uniform.keeps_inField (f := shape.fields[1]) rfl rfl ?_
  intro p
  exact (groups.orNull Draft.uniform_groupDecoder.list).map Draft.uniform_groupDecoder.list.orNull _

/-! ## Items without white space -/

/-- An element of a list that is nothing but its value. -/
def Json.Item.element (value : List Char) : Item := ⟨[], [], value, []⟩

/-- A member of an object that is nothing but its key, the colon, and its value. -/
def Json.Item.member (key : String) (value : List Char) : Item := ⟨'"' :: (key.toList ++ ['"', ':']), [], value, []⟩

theorem Json.Value.element {value : List Char} (h : Value value) : (Item.element value).WellFormed .list :=
  ⟨⟨rfl, .nil, .nil⟩, h⟩

theorem Json.Item.named_member {key : String} (spells : Spells key.toList key.toList) (value : List Char) :
    (member key value).Named key :=
  ⟨key.toList, ⟨[], [], .nil, .nil, rfl⟩, spells⟩

theorem Json.Value.member {value : List Char} (h : Value value) {key : String} (spells : Spells key.toList key.toList) :
    (Item.member key value).WellFormed .object :=
  ⟨⟨⟨key.toList, spells.chars, [], [], .nil, .nil, rfl⟩, .nil, .nil⟩, h⟩

theorem Json.Value.only {value : List Char} (h : Value value) : ∀ i ∈ [Item.element value], i.WellFormed .list := by
  intro i hi
  rw [List.mem_singleton.1 hi]
  exact h.element

/-- The only element of a list, changed. -/
theorem Json.InElement.only {change : List Char → List Char → Prop} {text text' : List Char} (value : Value text)
    (h : change text text') :
    InElement change (Enclosure.list.text [] [.element text]) (Enclosure.list.text [] [.element text']) :=
  @InElement.mk change [] [] [] (.element text) text' .nil value.only h

/-! ## Whole texts -/

/-- A value with white space around it is read as what it stands for. -/
theorem Json.Uniform.readAll_iff {r : Json.Decoder α} (uniform : Uniform r) {before value behind : List Char}
    (isValue : Value value) (spaces : Spaces before) (spaces' : Spaces behind) {a : α} :
    readAll r (String.ofList (before ++ (value ++ behind))) = .ok a ↔ StandsFor r value a := by
  have means := fun rest => uniform.means isValue before behind a rest spaces spaces'.follows
  rw [readAll_eq_ok_iff, String.toList_ofList]
  constructor
  · rintro ⟨rest, -, run⟩
    exact ((means rest).1 run).2
  · intro stands
    exact ⟨behind, spaces', (means behind).2 ⟨rfl, stands⟩⟩

/-- What a reader does not see, it does not see in a whole text, after any number of changes. -/
theorem Json.Keeps.readAll {r : Json.Decoder α} {change : List Char → List Char → Prop} (uniform : Uniform r)
    (h : Keeps r change) {before value value' behind : List Char} (spaces : Spaces before) (spaces' : Spaces behind)
    (changes : Relation.ReflTransGen change value value') {a : α}
    (read : readAll r (String.ofList (before ++ (value ++ behind))) = .ok a) :
    Json.readAll r (String.ofList (before ++ (value' ++ behind))) = .ok a := by
  induction changes with
  | refl => exact read
  | tail _ c ih =>
    obtain ⟨isValue, isValue'⟩ := h.values c
    have stands := (uniform.readAll_iff isValue spaces spaces').1 ih
    exact (uniform.readAll_iff isValue' spaces spaces').2 (h.stands c stands)

/-- The order of members does not matter, nor do members that are no field, in three parts.
1. A text that is read as a request is a value with white space around it.
2. If objects in it are rearranged, at any level and any number of times, the text is read as the same request.
3. It then comes to the same for every action, every tenant and whatever is served, and the same is told on the way. -/
theorem Request.ofJson_rearranged :
    (∀ (text : String) (request : Request), ofJson text = .ok request → ∃ before value behind,
      Json.Spaces before ∧ Json.Spaces behind ∧ Json.Value value ∧ text = String.ofList (before ++ (value ++ behind))) ∧
    ∀ (before value value' behind : List Char) (request : Request), Json.Spaces before → Json.Spaces behind →
      Relation.ReflTransGen Rearranged value value' →
      ofJson (String.ofList (before ++ (value ++ behind))) = .ok request →
        ofJson (String.ofList (before ++ (value' ++ behind))) = .ok request ∧
        ∀ (action : Action) (tenant : String) (serve : Lookup),
          Rule.ofJson (String.ofList (before ++ (value' ++ behind))) action tenant serve =
            Rule.ofJson (String.ofList (before ++ (value ++ behind))) action tenant serve := by
  refine ⟨fun text request read => readsValues_decoder.exists_value read, ?_⟩
  intro before value value' behind request spaces spaces' changes read
  have read' := keeps_rearranged.readAll uniform_decoder spaces spaces' changes read
  refine ⟨read', ?_⟩
  intro action tenant serve
  unfold Rule.ofJson
  rw [read, show ofJson (String.ofList (before ++ (value' ++ behind))) = .ok request from read']

/-- A request with a term that has a list of two values among its members, under a key that is no field. -/
theorem Request.ofJson_rearranged_term :
    let original :=
      "\x7b\"condition\":\"OR\",\"rules\":[[\"AND\",[\x7b\"field\":\"a\",\"operator\":\"in\",\"value\":\"b\"\x7d]]]\x7d"
    let rearranged := "\x7b\"condition\":\"OR\",\"rules\":[[\"AND\",[" ++
      "\x7b\"field\":\"a\",\"x\":[null,\"\"],\"operator\":\"in\",\"value\":\"b\"\x7d]]]\x7d"
    ofJson rearranged = .ok ⟨some [[⟨"a", "in", "b"⟩]]⟩ ∧
      ∀ (action : Action) (tenant : String) (serve : Lookup),
        Rule.ofJson rearranged action tenant serve = Rule.ofJson original action tenant serve := by
  intro original rearranged
  have string (text : List Char) (h : ∀ c ∈ text, c ≠ '"' ∧ c ≠ '\\' ∧ ¬c < ' ') : Json.Value ('"' :: (text ++ ['"'])) :=
    .string (Json.spells_self h).chars
  have key (name : String) (h : ∀ c ∈ name.toList, c ≠ '"' ∧ c ≠ '\\' ∧ ¬c < ' ') := Json.spells_self h
  have field := (string ['a'] (by simp)).member (key "field" (by simp))
  have operator := (string ['i', 'n'] (by simp)).member (key "operator" (by simp))
  have value := (string ['b'] (by simp)).member (key "value" (by simp))
  have nothing (e : Json.Enclosure) : ∀ i ∈ [], Json.Item.WellFormed e i := fun i hi => absurd hi List.not_mem_nil
  have pair := List.forall_mem_cons.2 ⟨Json.Value.nullWord.element, (string [] (by simp)).only⟩
  have foreign := (Json.value_text .nil pair).member (key "x" (by simp))
  have members := List.forall_mem_cons.2 ⟨field, List.forall_mem_cons.2 ⟨operator, List.forall_mem_cons.2 ⟨value, nothing _⟩⟩⟩
  have term : Term.Rearranged _ _ := @Json.Rearranged.inserted _ [] [_] [_, _] _ "x" .nil members foreign
    (Json.Item.named_member (key "x" (by simp)) _) (by decide)
  have terms := Json.InElement.only (Term.keeps_rearranged.values term).1 term
  have termsValue := (Json.value_text .nil (Term.keeps_rearranged.values term).1.only).only
  have elements := List.forall_mem_cons.2 ⟨(string ['A', 'N', 'D'] (by simp)).element, termsValue⟩
  have group : Draft.RearrangedGroup _ _ := .inr (@Json.InField.element "expressions" 1 _ [] [_] [] _ _ .nil elements rfl terms)
  have groups := Json.InElement.only (Draft.keeps_rearranged.values group).1 group
  have groupsValue := Json.value_text .nil (Draft.keeps_rearranged.values group).1.only
  have members := List.forall_mem_cons.2 ⟨(string ['O', 'R'] (by simp)).member (key "condition" (by simp)),
    List.forall_mem_cons.2 ⟨groupsValue.member (key "rules" (by simp)), nothing _⟩⟩
  have request : Rearranged _ _ := .inr (@Json.InField.member "rules" 1 _ [] [_] [] _ _ .nil members
    (Json.Item.named_member (key "rules" (by simp)) _) groups)
  have read : ofJson original = .ok ⟨some [[⟨"a", "in", "b"⟩]]⟩ := by decide +kernel
  have written (value : List Char) (text : String) (h : value = text.toList) : String.ofList ([] ++ (value ++ [])) = text := by
    rw [List.nil_append, List.append_nil, h, String.ofList_toList]
  have result := ofJson_rearranged.2 [] _ _ [] ⟨some [[⟨"a", "in", "b"⟩]]⟩ .nil .nil (.single request)
  rw [written _ original, written _ rearranged] at result
  · exact result read
  · decide +kernel
  · decide +kernel

end GateRules
