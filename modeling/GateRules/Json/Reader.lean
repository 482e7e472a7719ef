import GateRules.Json.Number
import GateRules.Json.Quoted
import GateRules.Text.Reader

/-!
# Reading JSON by shape

A text is read in one pass, straight into the shape that is wanted, so that of two faults the one that comes first in
the text is reported. This module has the readers of single values, of lists and of maps.
-/

namespace GateRules

/-- Reads a value of one shape from JSON. -/
abbrev Json.Decoder (α : Type) := Reader Json.Fault α

/-- The white space of JSON. -/
def Json.isSpace (c : Char) : Bool := c == ' ' || c == '\t' || c == '\n' || c == '\r'

/-- What is left when the white space in front is passed over. -/
def Json.skipSpace (cs : List Char) : List Char := cs.dropWhile isSpace

/-- White space that is passed over makes the text no longer. -/
theorem Json.length_skipSpace_le (cs : List Char) : (skipSpace cs).length ≤ cs.length :=
  (List.dropWhile_suffix _).length_le

/-- What stands behind the first character after white space is shorter than the text. -/
theorem Json.length_lt_of_skipSpace {cs rest : List Char} {c : Char} (h : skipSpace cs = c :: rest) :
    rest.length < cs.length := by
  have := length_skipSpace_le cs
  rw [h] at this
  exact this

/-- What follows a word that has to be there. -/
def Json.readWord : List Char → List Char → Except Fault (List Char)
  | [], cs => .ok cs
  | _, [] => .error .ended
  | w :: word, c :: cs => if c = w then readWord word cs else .error .garbled

/-- A word that is taken off makes the text no longer. -/
theorem Json.length_readWord {word cs rest : List Char} (h : readWord word cs = .ok rest) :
    rest.length ≤ cs.length := by
  fun_induction readWord word cs with
  | case1 => simp_all
  | case2 => cases h
  | case3 w word cs ih => exact Nat.le_succ_of_le (ih h)
  | case4 => cases h

/-- What stands in the text, as far as a message tells: `c` is its first character and `rest` what follows. -/
def Json.whatIs (c : Char) (rest : List Char) : Except Fault Found :=
  match c with
  | 'n' => (readWord ['u', 'l', 'l'] rest).map fun _ => .null
  | 't' => (readWord ['r', 'u', 'e'] rest).map fun _ => .boolean true
  | 'f' => (readWord ['a', 'l', 's', 'e'] rest).map fun _ => .boolean false
  | '"' => (readString rest).map fun (text, _) => .text (String.ofList text)
  | '[' => .ok .sequence
  | '{' => .ok .map
  | '-' => do (← readNumber true rest).found
  | c => if c.isDigit then do (← readNumber false (c :: rest)).found else .error .garbled

/-- The fault of finding something else than what was wanted. -/
def Json.mismatch (wanted : Wanted) (c : Char) (rest : List Char) : Fault :=
  match whatIs c rest with
  | .error fault => fault
  | .ok found => .misfit (.wrongType found wanted)

/-- A reader that passes over white space and then goes by the first character of what it reads. -/
def Json.byFirst (read : Char → List Char → Except Fault (α × List Char))
    (length_le : ∀ {c cs a rest}, read c cs = .ok (a, rest) → rest.length ≤ cs.length) : Json.Decoder α :=
  Reader.byFirst skipSpace length_skipSpace_le .ended read length_le

/-- The reader of one mark of punctuation. -/
def Json.mark (wanted : Char) : Json.Decoder Unit :=
  Reader.mark skipSpace length_skipSpace_le .ended .garbled wanted

/-- The reader of a string, which refuses with `otherwise` what does not start as one. -/
def Json.quoted (otherwise : Char → List Char → Fault) : Json.Decoder String :=
  byFirst
    (fun c rest =>
      if c = '"' then Reader.mapValue String.ofList (readString rest)
      else .error (otherwise c rest))
    fun {c cs a rest} h => by
      split at h
      · obtain ⟨_, hr, -⟩ := Reader.mapValue_eq_ok_iff.1 h
        exact Nat.le_of_lt (length_readString hr)
      · cases h

/-- The reader of a string. -/
def Json.string : Json.Decoder String := quoted (mismatch .string)

/-- The reader of a key. A text with anything but a string where a key has to be is no JSON, so that here no other type of
value is reported. -/
def Json.key : Json.Decoder String := quoted fun _ _ => .garbled

/-- The reader of a truth value. -/
def Json.boolean : Json.Decoder Bool :=
  byFirst
    (fun c rest =>
      if c = 't' then (readWord ['r', 'u', 'e'] rest).map fun rest => (true, rest)
      else if c = 'f' then (readWord ['a', 'l', 's', 'e'] rest).map fun rest => (false, rest)
      else .error (mismatch .boolean c rest))
    fun {c cs a rest} h => by
      split at h
      · obtain ⟨rest', hr, he⟩ := Reader.map_eq_ok_iff.1 h
        cases he
        exact length_readWord hr
      · split at h
        · obtain ⟨rest', hr, he⟩ := Reader.map_eq_ok_iff.1 h
          cases he
          exact length_readWord hr
        · cases h

/-- The reader of `null`, where nothing else may stand. -/
def Json.unit : Json.Decoder Unit :=
  byFirst
    (fun c rest =>
      if c = 'n' then (readWord ['u', 'l', 'l'] rest).map fun rest => ((), rest)
      else .error (mismatch .unit c rest))
    fun {c cs a rest} h => by
      split at h
      · obtain ⟨rest', hr, he⟩ := Reader.map_eq_ok_iff.1 h
        cases he
        exact length_readWord hr
      · cases h

/-- The reader of a value that may be `null`. -/
def Json.orNull (r : Json.Decoder α) : Json.Decoder (Option α) :=
  byFirst
    (fun c rest =>
      if c = 'n' then (readWord ['u', 'l', 'l'] rest).map fun rest => (none, rest)
      else Reader.mapValue some (r.run (c :: rest)))
    fun {c cs a rest} h => by
      split at h
      · obtain ⟨rest', hr, he⟩ := Reader.map_eq_ok_iff.1 h
        cases he
        exact length_readWord hr
      · obtain ⟨_, hr, -⟩ := Reader.mapValue_eq_ok_iff.1 h
        exact Nat.le_of_lt_succ (r.shortens hr)

/-- One of several words that each stand for a value. -/
def Json.chosen (words : List (String × α)) (word : String) : Except Misfit α :=
  match words.find? fun w => w.1 = word with
  | some w => .ok w.2
  | none => .error (.unknownVariant word (words.map Prod.fst))

/-- What a reader reads, put through a function that may refuse it. -/
def Json.check (r : Json.Decoder α) (f : α → Except Misfit β) : Json.Decoder β :=
  r.refine fun a => (f a).mapError .misfit

/-- The rest of a word written as the only key of an object, after the opening brace. -/
def Json.wordAsKey (words : List (String × α)) : Json.Decoder α :=
  (check key (chosen words)).andThen fun a =>
    (mark ':').andThen fun _ => unit.andThen fun _ => (mark '\x7d').map fun _ => a

/-- The reader of one of several words, which may also be written as the only key of an object with the value `null`. -/
def Json.word (words : List (String × α)) : Json.Decoder α :=
  byFirst
    (fun c rest =>
      if c = '"' then (check string (chosen words)).run (c :: rest)
      else if c = '\x7b' then (wordAsKey words).run rest
      else .error .garbled)
    fun {c cs a rest} h => by
      split at h
      · exact Nat.le_of_lt_succ ((check string (chosen words)).shortens h)
      · split at h
        · exact Nat.le_of_lt ((wordAsKey words).shortens h)
        · cases h

/-- What comes next in a list or in an object: its end, with what follows, or an item, with the text from there on. -/
inductive Json.Next where
  | close (rest : List Char)
  | item (here : List Char)

/-- What comes next in a list. A comma stands before every element but the first, and nowhere else. -/
def Json.nextElement (isFirst : Bool) (cs : List Char) : Except Fault Next :=
  match skipSpace cs with
  | [] => .error .ended
  | c :: rest =>
    if c = ']' then .ok (.close rest)
    else if isFirst then .ok (.item (c :: rest))
    else if c = ',' then match skipSpace rest with
      | [] => .error .ended
      | d :: rest => if d = ']' then .error .garbled else .ok (.item (d :: rest))
    else .error .garbled

/-- What comes next in an object; an item is the text after the opening quote of a key. -/
def Json.nextMember (isFirst : Bool) (cs : List Char) : Except Fault Next :=
  match skipSpace cs with
  | [] => .error .ended
  | c :: rest =>
    if c = '\x7d' then .ok (.close rest)
    else if isFirst then if c = '"' then .ok (.item rest) else .error .garbled
    else if c = ',' then match skipSpace rest with
      | [] => .error .ended
      | d :: rest => if d = '"' then .ok (.item rest) else .error .garbled
    else .error .garbled

/-- A list goes on with an element in a text that is no longer. -/
theorem Json.length_nextElement_item {isFirst : Bool} {cs here : List Char}
    (h : nextElement isFirst cs = .ok (.item here)) : here.length ≤ cs.length := by
  unfold nextElement at h
  have := length_skipSpace_le cs
  split at h
  · cases h
  · rename_i c rest hs
    have h1 : (c :: rest).length ≤ cs.length := hs ▸ this
    split at h
    · cases h
    split at h
    · cases h; exact h1
    split at h
    · split at h
      · cases h
      · rename_i d rest' hd
        have h2 : (d :: rest').length ≤ rest.length := hd ▸ length_skipSpace_le rest
        split at h
        · cases h
        · cases h; simp only [List.length_cons] at *; omega
    · cases h

/-- The end of a list takes up its bracket. -/
theorem Json.length_nextElement_close {isFirst : Bool} {cs rest : List Char}
    (h : nextElement isFirst cs = .ok (.close rest)) : rest.length < cs.length := by
  unfold nextElement at h
  split at h
  · cases h
  · rename_i c rest' hs
    split at h
    · cases h; exact length_lt_of_skipSpace hs
    split at h
    · cases h
    split at h
    · split at h
      · cases h
      · split at h <;> cases h
    · cases h

/-- An object goes on with a member in a text that is shorter by the quote of its key. -/
theorem Json.length_nextMember_item {isFirst : Bool} {cs here : List Char}
    (h : nextMember isFirst cs = .ok (.item here)) : here.length < cs.length := by
  unfold nextMember at h
  split at h
  · cases h
  · rename_i c rest hs
    have h1 := length_lt_of_skipSpace hs
    split at h
    · cases h
    split at h
    · split at h
      · cases h; exact h1
      · cases h
    split at h
    · split at h
      · cases h
      · rename_i d rest' hd
        have h2 := length_lt_of_skipSpace hd
        split at h
        · cases h; omega
        · cases h
    · cases h

/-- The end of an object takes up its brace. -/
theorem Json.length_nextMember_close {isFirst : Bool} {cs rest : List Char}
    (h : nextMember isFirst cs = .ok (.close rest)) : rest.length < cs.length := by
  unfold nextMember at h
  split at h
  · cases h
  · rename_i c rest' hs
    split at h
    · cases h; exact length_lt_of_skipSpace hs
    split at h
    · split at h <;> cases h
    split at h
    · split at h
      · cases h
      · split at h <;> cases h
    · cases h

/-- The elements of a list, after its opening bracket. -/
def Json.elements (r : Json.Decoder α) (isFirst : Bool) (cs : List Char) : Except Fault (List α × List Char) :=
  match _hn : nextElement isFirst cs with
  | .error fault => .error fault
  | .ok (.close rest) => .ok ([], rest)
  | .ok (.item here) => match _hr : r.run here with
    | .error fault => .error fault
    | .ok (a, rest) => Reader.mapValue (a :: ·) (elements r false rest)
termination_by cs.length
decreasing_by exact Nat.lt_of_lt_of_le (r.shortens _hr) (length_nextElement_item _hn)

/-- The members of an object, after its opening brace. `member` takes what was read so far and a key to the reader of
the value, which gives what is read then. -/
def Json.members (member : σ → String → Json.Decoder σ) (isFirst : Bool) (s : σ) (cs : List Char) :
    Except Fault (σ × List Char) :=
  match _hn : nextMember isFirst cs with
  | .error fault => .error fault
  | .ok (.close rest) => .ok (s, rest)
  | .ok (.item here) => match _hk : readString here with
    | .error fault => .error fault
    | .ok (key, rest) => match _hr : (member s (String.ofList key)).run rest with
      | .error fault => .error fault
      | .ok (s, rest) => members member false s rest
termination_by cs.length
decreasing_by
  have := length_nextMember_item _hn
  have := length_readString _hk
  have := (member _ (String.ofList key)).shortens _hr
  omega

/-- The elements of a list take up some of the text, at least the closing bracket. -/
theorem Json.length_elements {r : Json.Decoder α} {isFirst : Bool} {cs rest : List Char} {as : List α}
    (h : elements r isFirst cs = .ok (as, rest)) : rest.length < cs.length := by
  fun_induction elements r isFirst cs generalizing as rest with
  | case1 => cases h
  | case2 isFirst cs rest' hn =>
    cases h
    exact length_nextElement_close hn
  | case3 => cases h
  | case4 isFirst cs here hn a rest' hr ih =>
    obtain ⟨more, hm, -⟩ := Reader.mapValue_eq_ok_iff.1 h
    have := ih hm
    have := r.shortens hr
    have := length_nextElement_item hn
    omega

/-- The members of an object take up some of the text, at least the closing brace. -/
theorem Json.length_members {member : σ → String → Json.Decoder σ} {isFirst : Bool} {s t : σ} {cs rest : List Char}
    (h : members member isFirst s cs = .ok (t, rest)) : rest.length < cs.length := by
  fun_induction members member isFirst s cs with
  | case1 => cases h
  | case2 isFirst s cs rest' hn =>
    cases h
    exact length_nextMember_close hn
  | case3 => cases h
  | case4 => cases h
  | case5 isFirst s cs here hn key rest' hk s' rest'' hr ih =>
    have := ih h
    have := length_nextMember_item hn
    have := length_readString hk
    have := (member s (String.ofList key)).shortens hr
    omega

/-- The reader of a list. -/
def Json.list (r : Json.Decoder α) : Json.Decoder (List α) :=
  byFirst
    (fun c rest => if c = '[' then elements r true rest else .error (mismatch .sequence c rest))
    fun {c cs a rest} h => by
      split at h
      · exact Nat.le_of_lt (length_elements h)
      · cases h

/-- The reader of an object with any keys, each with the value after it, in order. -/
def Json.map (r : Json.Decoder α) : Json.Decoder (List (String × α)) :=
  byFirst
    (fun c rest =>
      if c = '\x7b' then
        members (fun entries key => (mark ':').andThen fun _ => r.map fun a => entries ++ [(key, a)]) true [] rest
      else .error (mismatch .map c rest))
    fun {c cs a rest} h => by
      split at h
      · exact Nat.le_of_lt (length_members h)
      · cases h

/-- The value that a whole text holds. -/
def Json.readAll (r : Json.Decoder α) (text : String) : Except Fault α :=
  match r.run text.toList with
  | .error fault => .error fault
  | .ok (a, rest) => if (skipSpace rest).isEmpty then .ok a else .error .garbled

end GateRules
