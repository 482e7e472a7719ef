/-!
# Readers

A reader takes a value from the front of a text and gives what follows it. Every reader uses up at least one character,
and the type says so; this is what lets `many` and the readers built on it go on for as long as there is something to read
and still end on every text.
-/

namespace GateRules

/-- A result put through a function is there exactly when the result is. -/
theorem Reader.map_eq_ok_iff {x : Except ε α} {f : α → β} {b : β} :
    x.map f = .ok b ↔ ∃ a, x = .ok a ∧ f a = b := by
  cases x <;> simp [Except.map]

/-- A value that was read, put through a function; what follows it stays. -/
def Reader.mapValue (f : α → β) (x : Except ε (α × List Char)) : Except ε (β × List Char) :=
  x.map fun (a, rest) => (f a, rest)

theorem Reader.mapValue_ok (f : α → β) (a : α) (rest : List Char) :
    mapValue f (.ok (a, rest) : Except ε _) = .ok (f a, rest) := rfl

theorem Reader.mapValue_error (f : α → β) (e : ε) : mapValue f (.error e) = .error e := rfl

/-- What is read and then put through a function leaves the rest of the text as it was. -/
theorem Reader.mapValue_eq_ok_iff {x : Except ε (α × List Char)} {f : α → β} {b : β} {rest : List Char} :
    mapValue f x = .ok (b, rest) ↔ ∃ a, x = .ok (a, rest) ∧ f a = b := by
  match x with
  | .error e => simp [mapValue_error]
  | .ok (a, r) => simp only [mapValue_ok, Except.ok.injEq, Prod.mk.injEq]; grind

/-- Reads an `α` from the front of a text, or says with an `ε` why it cannot. -/
structure Reader (ε α : Type) where
  run : List Char → Except ε (α × List Char)
  shortens : ∀ {cs a rest}, run cs = .ok (a, rest) → rest.length < cs.length

/-- The reader that refuses every text. -/
def Reader.refuse (e : ε) : Reader ε α := ⟨fun _ => .error e, nofun⟩

/-- What a reader reads, put through a function. -/
def Reader.map (f : α → β) (r : Reader ε α) : Reader ε β where
  run cs := mapValue f (r.run cs)
  shortens {cs b rest} h := by
    obtain ⟨a, hr, -⟩ := mapValue_eq_ok_iff.1 h
    exact r.shortens hr

/-- What a reader reads, put through a function that may refuse it. -/
def Reader.refine (r : Reader ε α) (f : α → Except ε β) : Reader ε β where
  run cs := match r.run cs with
    | .error e => .error e
    | .ok (a, rest) => match f a with
      | .error e => .error e
      | .ok b => .ok (b, rest)
  shortens {cs b rest} h := by
    match hr : r.run cs with
    | .error e => simp [hr] at h
    | .ok (a, rest') =>
      simp only [hr] at h
      split at h
      · cases h
      · cases h; exact r.shortens hr

/-- A reader that passes over what `skip` passes over and then goes on as `r`. -/
def Reader.after (skip : List Char → List Char) (length_skip_le : ∀ cs, (skip cs).length ≤ cs.length) (r : Reader ε α) :
    Reader ε α where
  run cs := r.run (skip cs)
  shortens h := Nat.lt_of_lt_of_le (r.shortens h) (length_skip_le _)

/-- One reader, and then another that may depend on what was read. -/
def Reader.andThen (r : Reader ε α) (next : α → Reader ε β) : Reader ε β where
  run cs := match r.run cs with
    | .error e => .error e
    | .ok (a, rest) => (next a).run rest
  shortens {cs b rest} h := by
    match hr : r.run cs with
    | .error e => simp [hr] at h
    | .ok (a, rest') =>
      simp only [hr] at h
      exact Nat.lt_trans ((next a).shortens h) (r.shortens hr)

/-- What is read first decides how the rest is read. -/
theorem Reader.run_andThen_ok {r : Reader ε α} {next : α → Reader ε β} {cs rest : List Char} {a : α}
    (h : r.run cs = .ok (a, rest)) : (r.andThen next).run cs = (next a).run rest := by
  simp [andThen, h]

/-- If the first of two readers refuses, its reason is given and the second is not asked. -/
theorem Reader.run_andThen_error {r : Reader ε α} {next : α → Reader ε β} {cs : List Char} {e : ε}
    (h : r.run cs = .error e) : (r.andThen next).run cs = .error e := by
  simp [andThen, h]

/-- A reader that passes over what `skip` passes over and then goes by the first character of what it reads. At the end of
the text it refuses with `ended`. -/
def Reader.byFirst (skip : List Char → List Char) (length_skip_le : ∀ cs, (skip cs).length ≤ cs.length) (ended : ε)
    (read : Char → List Char → Except ε (α × List Char))
    (length_le : ∀ {c cs a rest}, read c cs = .ok (a, rest) → rest.length ≤ cs.length) : Reader ε α where
  run cs := match skip cs with
    | [] => .error ended
    | c :: rest => read c rest
  shortens {cs a rest} h := by
    have hl := length_skip_le cs
    match hs : skip cs with
    | [] => simp [hs] at h
    | c :: rest' =>
      simp only [hs] at h
      rw [hs] at hl
      exact Nat.lt_of_le_of_lt (length_le h) hl

/-- The reader of one mark of punctuation. -/
def Reader.mark (skip : List Char → List Char) (length_skip_le : ∀ cs, (skip cs).length ≤ cs.length)
    (ended other : ε) (wanted : Char) : Reader ε Unit :=
  byFirst skip length_skip_le ended (fun c rest => if c = wanted then .ok ((), rest) else .error other)
    fun {c cs a rest} h => by
      split at h
      · cases h; exact Nat.le_refl _
      · cases h

/-- What may stand between two items: it is found and passed over, or it is not there. -/
structure Separator where
  skip? : List Char → Option (List Char)
  length_le : ∀ {cs rest}, skip? cs = some rest → rest.length ≤ cs.length

/-- Items that each follow a separator, up to the first place where there is no separator. After a separator an item must
follow. -/
def Reader.many (r : Reader ε α) (s : Separator) (cs : List Char) : Except ε (List α × List Char) :=
  match _hs : s.skip? cs with
  | none => .ok ([], cs)
  | some here =>
    match _hr : r.run here with
    | .error e => .error e
    | .ok (a, rest) => mapValue (a :: ·) (r.many s rest)
termination_by cs.length
decreasing_by exact Nat.lt_of_lt_of_le (r.shortens _hr) (s.length_le _hs)

/-- A repetition ends with nothing where its separator does not lead to an item. -/
theorem Reader.many_of_none {r : Reader ε α} {s : Separator} {cs : List Char} (h : s.skip? cs = none) :
    r.many s cs = .ok ([], cs) := by
  rw [many]; split <;> simp_all

/-- A repetition fails with the reason of an item that it was led to. -/
theorem Reader.many_of_error {r : Reader ε α} {s : Separator} {cs here : List Char} {e : ε}
    (hs : s.skip? cs = some here) (hr : r.run here = .error e) : r.many s cs = .error e := by
  rw [many]; split <;> simp_all; split <;> simp_all

/-- A repetition has the item that it was led to, and then what the repetition has behind it. -/
theorem Reader.many_of_ok {r : Reader ε α} {s : Separator} {cs here rest : List Char} {a : α}
    (hs : s.skip? cs = some here) (hr : r.run here = .ok (a, rest)) :
    r.many s cs = mapValue (a :: ·) (r.many s rest) := by
  rw [many]; split <;> simp_all; split <;> simp_all

/-- A repetition makes the text no longer. -/
theorem Reader.length_le_of_many {r : Reader ε α} {s : Separator} {cs rest : List Char} {as : List α}
    (h : r.many s cs = .ok (as, rest)) : rest.length ≤ cs.length := by
  fun_induction r.many s cs generalizing as rest with
  | case1 cs hs => simp_all
  | case2 => simp at h
  | case3 cs here hs a rest' hr ih =>
    obtain ⟨more, hm, -⟩ := mapValue_eq_ok_iff.1 h
    have := ih hm
    have := r.shortens hr
    have := s.length_le hs
    omega

/-- One item, and then as many as follow it with a separator before each. -/
def Reader.sepBy (r : Reader ε α) (s : Separator) : Reader ε (List α) where
  run cs := match r.run cs with
    | .error e => .error e
    | .ok (a, rest) => mapValue (a :: ·) (r.many s rest)
  shortens {cs as rest} h := by
    match hr : r.run cs with
    | .error e => simp [hr] at h
    | .ok (a, rest') =>
      simp only [hr] at h
      obtain ⟨more, hm, -⟩ := mapValue_eq_ok_iff.1 h
      have := r.shortens hr
      have := length_le_of_many hm
      omega

end GateRules
