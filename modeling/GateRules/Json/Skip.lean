import GateRules.Json.Reader

/-!
# Values that are passed over

The value of a member that a record does not have is passed over: any value of JSON, nested to any depth. Such a value is
looked at less closely than one that is kept; code units of a surrogate pair may stand alone, and numbers may be as large
as they like.
-/

namespace GateRules

/-- What follows a string, after its opening quote. -/
def Json.skipString (cs : List Char) : Except Fault (List Char) :=
  match cs with
  | [] => .error .ended
  | c :: rest =>
    if c = '"' then .ok rest
    else if c = '\\' then match rest with
      | [] => .error .ended
      | e :: rest =>
        if e = 'u' then match _h : readHex4 rest with
          | .error fault => .error fault
          | .ok (_, rest) => skipString rest
        else if (simpleEscape? e).isSome then skipString rest
        else .error .garbled
    else if c < ' ' then .error .garbled
    else skipString rest
termination_by cs.length
decreasing_by
  · have := length_readHex4 _h
    simp only [List.length_cons] at *
    omega
  · simp only [List.length_cons]; omega
  · simp

/-- A string that is passed over uses up some of the text, at least its closing quote. -/
theorem Json.length_skipString {cs rest : List Char} (h : skipString cs = .ok rest) : rest.length < cs.length := by
  fun_induction skipString cs with
  | case1 => cases h
  | case2 => simp_all
  | case3 => cases h
  | case4 => cases h
  | case5 rest' _ rest'' hr _ ih =>
    have := length_readHex4 hr
    have := ih h
    simp only [List.length_cons]
    omega
  | case6 e rest' _ _ _ ih =>
    have := ih h
    simp only [List.length_cons]
    omega
  | case7 => cases h
  | case8 => cases h
  | case9 c rest' _ _ _ ih =>
    have := ih h
    simp only [List.length_cons]
    omega

/-- What follows at least one digit. -/
def Json.skipDigits (cs : List Char) : Except Fault (List Char) :=
  if atDigit cs then .ok (cs.dropWhile Char.isDigit) else .error .garbled

/-- What follows the exponent of a number, if there is one. -/
def Json.skipExponent : List Char → Except Fault (List Char)
  | e :: rest =>
    if e = 'e' ∨ e = 'E' then match rest with
      | '+' :: rest => skipDigits rest
      | '-' :: rest => skipDigits rest
      | rest => skipDigits rest
    else .ok (e :: rest)
  | [] => .ok []

/-- What follows the digits before the point of a number; only one zero may lead. -/
def Json.skipWhole : List Char → Except Fault (List Char)
  | '0' :: rest => if atDigit rest then .error .garbled else .ok rest
  | cs => skipDigits cs

/-- What follows a number, after its sign. -/
def Json.skipNumber (cs : List Char) : Except Fault (List Char) :=
  match skipWhole cs with
  | .error fault => .error fault
  | .ok ('.' :: rest) => match skipDigits rest with
    | .error fault => .error fault
    | .ok rest => skipExponent rest
  | .ok rest => skipExponent rest

/-- Digits that are passed over use up some of the text: there is at least one. -/
theorem Json.length_skipDigits {cs rest : List Char} (h : skipDigits cs = .ok rest) : rest.length < cs.length := by
  unfold skipDigits at h
  split at h
  · rename_i hd
    cases cs with
    | nil => simp [atDigit] at hd
    | cons c cs =>
      have hc : c.isDigit = true := hd
      simp only [List.dropWhile_cons, hc, if_true, Except.ok.injEq] at h
      exact h ▸ Nat.lt_succ_of_le (List.dropWhile_suffix _).length_le
  · cases h

/-- An exponent may be missing, so the text is only no longer behind it. -/
theorem Json.length_skipExponent {cs rest : List Char} (h : skipExponent cs = .ok rest) :
    rest.length ≤ cs.length := by
  unfold skipExponent at h
  split at h
  · split at h
    · split at h <;>
      · have := length_skipDigits h
        simp only [List.length_cons] at *
        omega
    · cases h; exact Nat.le_refl _
  · cases h; exact Nat.le_refl _

/-- The digits before the point are at least one. -/
theorem Json.length_skipWhole {cs rest : List Char} (h : skipWhole cs = .ok rest) : rest.length < cs.length := by
  unfold skipWhole at h
  split at h
  · split at h
    · cases h
    · cases h; simp
  · exact length_skipDigits h

/-- A number that is passed over uses up some of the text. -/
theorem Json.length_skipNumber {cs rest : List Char} (h : skipNumber cs = .ok rest) : rest.length < cs.length := by
  unfold skipNumber at h
  split at h
  · cases h
  · rename_i hw
    have := length_skipWhole hw
    split at h
    · cases h
    · rename_i hd
      have := length_skipDigits hd
      have := length_skipExponent h
      simp only [List.length_cons] at *
      omega
  · rename_i hw
    have := length_skipWhole hw
    have := length_skipExponent h
    omega

/-- What follows a value that has no values in it, where `c` is its first character. -/
def Json.skipScalar (c : Char) (rest : List Char) : Except Fault (List Char) :=
  match c with
  | 'n' => readWord ['u', 'l', 'l'] rest
  | 't' => readWord ['r', 'u', 'e'] rest
  | 'f' => readWord ['a', 'l', 's', 'e'] rest
  | '"' => skipString rest
  | '-' => skipNumber rest
  | c => if c.isDigit then skipNumber (c :: rest) else .error .garbled

/-- Behind its first character, a value without values in it may have nothing more. -/
theorem Json.length_skipScalar {c : Char} {cs rest : List Char} (h : skipScalar c cs = .ok rest) :
    rest.length ≤ cs.length := by
  unfold skipScalar at h
  split at h
  · exact length_readWord h
  · exact length_readWord h
  · exact length_readWord h
  · exact Nat.le_of_lt (length_skipString h)
  · exact Nat.le_of_lt (length_skipNumber h)
  · split at h
    · exact Nat.le_of_lt_succ (length_skipNumber h)
    · cases h

/-- What a value that is passed over may stand in. -/
inductive Json.Enclosure where
  | list
  | object
deriving DecidableEq

/-- The bracket that opens an enclosure. -/
def Json.Enclosure.opening : Enclosure → Char
  | .list => '['
  | .object => '\x7b'

/-- The bracket that closes an enclosure. -/
def Json.Enclosure.closing : Enclosure → Char
  | .list => ']'
  | .object => '\x7d'

/-- What follows the key of a member and the colon after it. -/
def Json.skipKey (cs : List Char) : Except Fault (List Char) :=
  match skipSpace cs with
  | [] => .error .ended
  | c :: rest =>
    if c = '"' then match skipString rest with
      | .error fault => .error fault
      | .ok rest => match (mark ':').run rest with
        | .error fault => .error fault
        | .ok (_, rest) => .ok rest
    else .error .garbled

/-- A key with its colon uses up some of the text. -/
theorem Json.length_skipKey {cs rest : List Char} (h : skipKey cs = .ok rest) : rest.length < cs.length := by
  unfold skipKey at h
  split at h
  · cases h
  · rename_i c rest' hs
    have := length_lt_of_skipSpace hs
    split at h
    · split at h
      · cases h
      · rename_i hk
        have := length_skipString hk
        split at h
        · cases h
        · rename_i hm
          have := (mark ':').shortens hm
          cases h
          omega
    · cases h

/-- The text from the value of the next item of an enclosure on. -/
def Json.Enclosure.enter (e : Enclosure) (cs : List Char) : Except Fault (List Char) :=
  match e with
  | .list => .ok cs
  | .object => skipKey cs

/-- The way to the value of an item makes the text no longer; in a list there is none. -/
theorem Json.Enclosure.length_enter {e : Enclosure} {cs rest : List Char} (h : e.enter cs = .ok rest) :
    rest.length ≤ cs.length := by
  cases e with
  | list => cases h; exact Nat.le_refl _
  | object => exact Nat.le_of_lt (length_skipKey h)

mutual

/-- What follows a value and the enclosures it stands in, innermost first. -/
def Json.skipValue (within : List Enclosure) (cs : List Char) : Except Fault (List Char) :=
  match _h : skipSpace cs with
  | [] => .error .ended
  | c :: rest =>
    if c = '[' then skipFirst .list within rest
    else if c = '\x7b' then skipFirst .object within rest
    else match _hs : skipScalar c rest with
      | .error fault => .error fault
      | .ok rest => skipAfter within rest
termination_by (cs.length, 0)
decreasing_by
  · exact Prod.Lex.left _ _ (length_lt_of_skipSpace _h)
  · exact Prod.Lex.left _ _ (length_lt_of_skipSpace _h)
  · exact Prod.Lex.left _ _ (Nat.lt_of_le_of_lt (length_skipScalar _hs) (length_lt_of_skipSpace _h))

/-- What follows an enclosure that has just been opened, and those it stands in. -/
def Json.skipFirst (e : Enclosure) (within : List Enclosure) (cs : List Char) : Except Fault (List Char) :=
  match _h : skipSpace cs with
  | [] => .error .ended
  | c :: rest =>
    if c = e.closing then skipAfter within rest
    else match _he : e.enter (c :: rest) with
      | .error fault => .error fault
      | .ok rest => skipValue (e :: within) rest
termination_by (cs.length, 1)
decreasing_by
  · exact Prod.Lex.left _ _ (length_lt_of_skipSpace _h)
  · have h1 := Enclosure.length_enter _he
    have h2 := length_skipSpace_le cs
    rw [_h] at h2
    rcases Nat.lt_or_eq_of_le (Nat.le_trans h1 h2) with h3 | h3
    · exact Prod.Lex.left _ _ h3
    · rw [h3]; exact Prod.Lex.right _ (by decide)

/-- What follows the enclosures that a value stands in, after the value. -/
def Json.skipAfter (within : List Enclosure) (cs : List Char) : Except Fault (List Char) :=
  match within with
  | [] => .ok cs
  | e :: within => match _h : skipSpace cs with
    | [] => .error .ended
    | c :: rest =>
      if c = e.closing then skipAfter within rest
      else if c = ',' then match _he : e.enter rest with
        | .error fault => .error fault
        | .ok rest => skipValue (e :: within) rest
      else .error .garbled
termination_by (cs.length, 0)
decreasing_by
  · exact Prod.Lex.left _ _ (length_lt_of_skipSpace _h)
  · exact Prod.Lex.left _ _ (Nat.lt_of_le_of_lt (Enclosure.length_enter _he) (length_lt_of_skipSpace _h))

end

/-- How a value is passed over: by its first character behind white space. -/
theorem Json.skipValue_eq (within : List Enclosure) (cs : List Char) : skipValue within cs =
    match skipSpace cs with
    | [] => .error .ended
    | c :: rest =>
      if c = '[' then skipFirst .list within rest
      else if c = '\x7b' then skipFirst .object within rest
      else match skipScalar c rest with
        | .error fault => .error fault
        | .ok rest => skipAfter within rest := by
  rw [skipValue.eq_def]
  split
  · rename_i h
    simp only [h]
  · rename_i h
    simp only [h]
    split
    · rfl
    split
    · rfl
    split <;> rename_i hs <;> simp only [hs]

/-- How an enclosure that was opened is passed over: it is closed at once, or has an item. -/
theorem Json.skipFirst_eq (e : Enclosure) (within : List Enclosure) (cs : List Char) : skipFirst e within cs =
    match skipSpace cs with
    | [] => .error .ended
    | c :: rest =>
      if c = e.closing then skipAfter within rest
      else match e.enter (c :: rest) with
        | .error fault => .error fault
        | .ok rest => skipValue (e :: within) rest := by
  rw [skipFirst.eq_def]
  split
  · rename_i h
    simp only [h]
  · rename_i h
    simp only [h]
    split
    · rfl
    split <;> rename_i he <;> simp only [he]

/-- How an enclosure is passed over behind an item: it is closed, or a comma leads to the next item. -/
theorem Json.skipAfter_eq (e : Enclosure) (within : List Enclosure) (cs : List Char) : skipAfter (e :: within) cs =
    match skipSpace cs with
    | [] => .error .ended
    | c :: rest =>
      if c = e.closing then skipAfter within rest
      else if c = ',' then match e.enter rest with
        | .error fault => .error fault
        | .ok rest => skipValue (e :: within) rest
      else .error .garbled := by
  rw [skipAfter]
  split
  · rename_i h
    simp only [h]
  · rename_i h
    simp only [h]
    split
    · rfl
    split
    · split <;> rename_i he <;> simp only [he]
    · rfl

/-- A value that is passed over opens an enclosure, or is one without values in it. -/
theorem Json.cases_of_skipValue {within : List Enclosure} {cs rest : List Char} (h : skipValue within cs = .ok rest) :
    ∃ c more, skipSpace cs = c :: more ∧
      ((∃ e : Enclosure, c = e.opening ∧ skipFirst e within more = .ok rest) ∨
        ∃ after, skipScalar c more = .ok after ∧ skipAfter within after = .ok rest) := by
  rw [skipValue_eq] at h
  split at h
  · cases h
  rename_i c more start
  refine ⟨c, more, start, ?_⟩
  split at h
  · rename_i opens
    exact .inl ⟨.list, opens, h⟩
  split at h
  · rename_i opens
    exact .inl ⟨.object, opens, h⟩
  split at h
  · cases h
  · rename_i after scalar
    exact .inr ⟨after, scalar, h⟩

/-- An enclosure that was opened and is passed over is closed at once, or a value is passed over in it. -/
theorem Json.cases_of_skipFirst {e : Enclosure} {within : List Enclosure} {cs rest : List Char}
    (h : skipFirst e within cs = .ok rest) : ∃ c more, skipSpace cs = c :: more ∧
      ((c = e.closing ∧ skipAfter within more = .ok rest) ∨
        ∃ here, e.enter (c :: more) = .ok here ∧ skipValue (e :: within) here = .ok rest) := by
  rw [skipFirst_eq] at h
  split at h
  · cases h
  rename_i c more start
  refine ⟨c, more, start, ?_⟩
  split at h
  · rename_i closes
    exact .inl ⟨closes, h⟩
  split at h
  · cases h
  · rename_i here entered
    exact .inr ⟨here, entered, h⟩

/-- An enclosure that is passed over behind an item is closed there, or a value is passed over behind a comma. -/
theorem Json.cases_of_skipAfter {e : Enclosure} {within : List Enclosure} {cs rest : List Char}
    (h : skipAfter (e :: within) cs = .ok rest) : ∃ c more, skipSpace cs = c :: more ∧
      ((c = e.closing ∧ skipAfter within more = .ok rest) ∨
        (c = ',' ∧ ∃ here, e.enter more = .ok here ∧ skipValue (e :: within) here = .ok rest)) := by
  rw [skipAfter_eq] at h
  split at h
  · cases h
  rename_i c more start
  refine ⟨c, more, start, ?_⟩
  split at h
  · rename_i closes
    exact .inl ⟨closes, h⟩
  split at h
  · rename_i comma
    split at h
    · cases h
    · rename_i here entered
      exact .inr ⟨comma, here, entered, h⟩
  · cases h

-- Each call is on a shorter text, but for the value of a first item, which may start where the enclosure was entered.
mutual

/-- Passing over a value uses up some of the text. -/
theorem Json.length_skipValue (within : List Enclosure) (cs : List Char) {rest : List Char}
    (h : skipValue within cs = .ok rest) : rest.length < cs.length := by
  obtain ⟨c, more, start, ⟨e, -, inside⟩ | ⟨after, scalar, behind⟩⟩ := cases_of_skipValue h
  · have first := length_lt_of_skipSpace start
    have := length_skipFirst e within more inside
    omega
  · have first := length_lt_of_skipSpace start
    have shorter := length_skipScalar scalar
    have := length_skipAfter within after behind
    omega
termination_by 2 * cs.length

/-- Passing over what is left of an enclosure that was opened uses up some of the text. -/
theorem Json.length_skipFirst (e : Enclosure) (within : List Enclosure) (cs : List Char) {rest : List Char}
    (h : skipFirst e within cs = .ok rest) : rest.length < cs.length := by
  obtain ⟨c, more, start, ⟨-, behind⟩ | ⟨here, entered, inside⟩⟩ := cases_of_skipFirst h
  · have first := length_lt_of_skipSpace start
    have := length_skipAfter within more behind
    omega
  · have kept := start ▸ length_skipSpace_le cs
    have shorter := Enclosure.length_enter entered
    have := length_skipValue (e :: within) here inside
    omega
termination_by 2 * cs.length + 1

/-- Passing over the ends of enclosures makes the text no longer. -/
theorem Json.length_skipAfter (within : List Enclosure) (cs : List Char) {rest : List Char}
    (h : skipAfter within cs = .ok rest) : rest.length ≤ cs.length := by
  cases within with
  | nil =>
    rw [skipAfter] at h
    cases h
    exact Nat.le_refl _
  | cons e within =>
    obtain ⟨c, more, start, ⟨-, behind⟩ | ⟨-, here, entered, inside⟩⟩ := cases_of_skipAfter h
    · have first := length_lt_of_skipSpace start
      have := length_skipAfter within more behind
      omega
    · have first := length_lt_of_skipSpace start
      have shorter := Enclosure.length_enter entered
      have := length_skipValue (e :: within) here inside
      omega
termination_by 2 * cs.length

end

/-- The reader that passes over a value. -/
def Json.skip : Json.Decoder Unit where
  run cs := match skipValue [] cs with
    | .error fault => .error fault
    | .ok rest => .ok ((), rest)
  shortens {cs a rest} h := by
    split at h
    · cases h
    · rename_i hs
      cases h
      exact length_skipValue [] cs hs

end GateRules
