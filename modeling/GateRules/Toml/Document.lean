import GateRules.Toml.Scalar

/-!
# TOML documents

A document is a list of lines: headers, which say which table the lines after them belong to, and keys with their values.
Lists and tables in braces may go over several lines, and may end in a comma.
-/

namespace GateRules

/-- How deep lists and tables in braces may be nested, and how many parts a key may have. -/
def Toml.maxDepth : Nat := 80

/-- A reader that passes over blanks and then goes by the first character of what it reads. -/
def Toml.byFirst (read : Char → List Char → Except Fault (α × List Char))
    (length_le : ∀ {c cs a rest}, read c cs = .ok (a, rest) → rest.length ≤ cs.length) : Toml.Decoder α :=
  Reader.byFirst skipBlanks length_skipBlanks_le .malformed read length_le

/-- The reader of one mark of punctuation. -/
def Toml.mark (wanted : Char) : Toml.Decoder Unit :=
  Reader.mark skipBlanks length_skipBlanks_le .malformed .malformed wanted

/-- Whether a character may stand in a key without quotes. -/
def Toml.isKeyChar (c : Char) : Bool := c.isAlphanum || c == '-' || c == '_'

/-- The reader of one part of a key. -/
def Toml.keyPart : Toml.Decoder String :=
  byFirst
    (fun c rest =>
      if c = '"' ∨ c = '\'' then readLine c rest
      else if isKeyChar c then .ok (String.ofList (c :: rest.takeWhile isKeyChar), rest.dropWhile isKeyChar)
      else .error .malformed)
    fun {c cs a rest} h => by
      split at h
      · exact Nat.le_of_lt (length_readLine h)
      split at h
      · cases h; exact (List.dropWhile_suffix _).length_le
      · cases h

/-- The point between the parts of a key. -/
def Toml.point : Separator where
  skip? cs := match skipBlanks cs with
    | '.' :: rest => some rest
    | _ => none
  length_le {cs rest} h := by
    have hl := length_skipBlanks_le cs
    split at h
    · rename_i hs
      cases h
      rw [hs] at hl
      exact Nat.le_of_succ_le hl
    · cases h

/-- The reader of a key. -/
def Toml.key : Toml.Decoder (List String) :=
  (keyPart.sepBy point).refine fun path => if path.length ≤ maxDepth then .ok path else .error .malformed

/-- The reader of a key with its value, which stand in one line. -/
def Toml.keyValue (value : Toml.Decoder Value) : Toml.Decoder (List String × Value) :=
  key.andThen fun path => (mark '=').andThen fun _ => value.map fun v => (path, v)

/-- The reader of a key with its value in braces, where lines may end on both sides of the equals sign. -/
def Toml.inlineEntry (value : Toml.Decoder Value) : Toml.Decoder (List String × Value) :=
  key.andThen fun path => (Reader.after skipLines length_skipLines_le (mark '=')).andThen fun _ =>
    (Reader.after skipLines length_skipLines_le value).map fun v => (path, v)

/-- A truth value, a number or a time. -/
def Toml.readWord (cs : List Char) : Except Fault (Value × List Char) :=
  let (word, rest) := spanWord cs
  if word = ['t', 'r', 'u', 'e'] then .ok (.boolean true, rest)
  else if word = ['f', 'a', 'l', 's', 'e'] then .ok (.boolean false, rest)
  else if isNumeric word then .ok (.numeric, rest)
  else .error .malformed

/-- A value without quotes takes up some of the text. -/
theorem Toml.length_readWord {cs rest : List Char} {v : Value} (h : readWord cs = .ok (v, rest)) :
    rest.length < cs.length := by
  have happ := congrArg List.length (spanWord_append cs)
  have hpos : (spanWord cs).1 ≠ [] := by
    intro hw
    simp [readWord, hw, isNumeric_nil] at h
  have hrest : rest = (spanWord cs).2 := by
    unfold readWord at h
    dsimp only at h
    split at h
    · cases h; rfl
    split at h
    · cases h; rfl
    split at h
    · cases h; rfl
    · cases h
  have := List.length_pos_iff.2 hpos
  rw [hrest]
  simp only [List.length_append] at happ
  omega

/-- The elements of a list, after its opening bracket. -/
def Toml.elements (value : Toml.Decoder Value) (cs : List Char) : Except Fault (List Value × List Char) :=
  match _hs : skipLines cs with
  | [] => .error .malformed
  | c :: after =>
    if c = ']' then .ok ([], after)
    else match _hv : value.run (c :: after) with
      | .error fault => .error fault
      | .ok (v, rest) => match _hr : skipLines rest with
        | [] => .error .malformed
        | d :: rest =>
          if d = ',' then Reader.mapValue (v :: ·) (elements value rest)
          else if d = ']' then .ok ([v], rest)
          else .error .malformed
termination_by cs.length
decreasing_by
  have h1 := length_of_skipLines _hs
  have h2 := value.shortens _hv
  have h3 := length_of_skipLines _hr
  simp only [List.length_cons] at *
  omega

/-- The entries of a table in braces, after its opening brace. -/
def Toml.inlineEntries (value : Toml.Decoder Value) (entries : Entries) (cs : List Char) :
    Except Fault (Entries × List Char) :=
  match _hs : skipLines cs with
  | [] => .error .malformed
  | c :: after =>
    if c = '\x7d' then .ok (entries, after)
    else match _hv : (inlineEntry value).run (c :: after) with
      | .error fault => .error fault
      | .ok ((path, v), rest) => match assign path v .inline entries with
        | .error fault => .error fault
        | .ok entries => match _hr : skipLines rest with
          | [] => .error .malformed
          | d :: rest =>
            if d = ',' then inlineEntries value entries rest
            else if d = '\x7d' then .ok (entries, rest)
            else .error .malformed
termination_by cs.length
decreasing_by
  have h1 := length_of_skipLines _hs
  have h2 := (inlineEntry value).shortens _hv
  have h3 := length_of_skipLines _hr
  simp only [List.length_cons] at *
  omega

/-- The elements of an array make the text no longer. -/
theorem Toml.length_elements {value : Toml.Decoder Value} {cs rest : List Char} {vs : List Value}
    (h : elements value cs = .ok (vs, rest)) : rest.length ≤ cs.length := by
  fun_induction elements value cs generalizing vs rest with
  | case1 => cases h
  | case2 cs after hs =>
    have h1 := length_of_skipLines hs
    cases h
    exact Nat.le_of_succ_le h1
  | case3 => cases h
  | case4 => cases h
  | case5 cs c after hs _ v rest1 hv rest2 hr ih =>
    have h1 := length_of_skipLines hs
    have h2 := value.shortens hv
    have h3 := length_of_skipLines hr
    obtain ⟨more, hm, -⟩ := Reader.mapValue_eq_ok_iff.1 h
    have := ih hm
    simp only [List.length_cons] at *
    omega
  | case6 cs c after hs _ v rest1 hv rest2 hr _ =>
    have h1 := length_of_skipLines hs
    have h2 := value.shortens hv
    have h3 := length_of_skipLines hr
    cases h
    simp only [List.length_cons] at *
    omega
  | case7 => cases h

/-- The entries of an inline table make the text no longer. -/
theorem Toml.length_inlineEntries {value : Toml.Decoder Value} {entries out : Entries} {cs rest : List Char}
    (h : inlineEntries value entries cs = .ok (out, rest)) : rest.length ≤ cs.length := by
  fun_induction inlineEntries value entries cs with
  | case1 => cases h
  | case2 entries cs after hs =>
    have h1 := length_of_skipLines hs
    cases h
    exact Nat.le_of_succ_le h1
  | case3 => cases h
  | case4 => cases h
  | case5 => cases h
  | case6 entries cs c after hs _ path v rest1 hv entries' _ rest2 hr ih =>
    have h1 := length_of_skipLines hs
    have h2 := (inlineEntry value).shortens hv
    have h3 := length_of_skipLines hr
    have := ih h
    simp only [List.length_cons] at *
    omega
  | case7 entries cs c after hs _ path v rest1 hv entries' _ rest2 hr _ =>
    have h1 := length_of_skipLines hs
    have h2 := (inlineEntry value).shortens hv
    have h3 := length_of_skipLines hr
    cases h
    simp only [List.length_cons] at *
    omega
  | case8 => cases h

/-- The reader of a value, where `inner` reads the values in it; a value without `inner` has no values in it. -/
def Toml.valueOver (inner : Option (Toml.Decoder Value)) : Toml.Decoder Value :=
  byFirst
    (fun c rest =>
      if c = '"' ∨ c = '\'' then Reader.mapValue Value.text (readText c rest)
      else if c = '[' then match inner with
        | some inner => Reader.mapValue (Value.array false) (elements inner rest)
        | none => .error .malformed
      else if c = '\x7b' then match inner with
        | some inner => Reader.mapValue (Value.table .inline) (inlineEntries inner [] rest)
        | none => .error .malformed
      else readWord (c :: rest))
    fun {c cs a rest} h => by
      split at h
      · obtain ⟨_, hr, -⟩ := Reader.mapValue_eq_ok_iff.1 h
        exact Nat.le_of_lt (length_readText hr)
      split at h
      · split at h
        · obtain ⟨_, hr, -⟩ := Reader.mapValue_eq_ok_iff.1 h
          exact length_elements hr
        · cases h
      split at h
      · split at h
        · obtain ⟨_, hr, -⟩ := Reader.mapValue_eq_ok_iff.1 h
          exact length_inlineEntries hr
        · cases h
      · exact Nat.le_of_lt_succ (length_readWord h)

/-- The reader of a value in which lists and tables are nested to this depth at most. -/
def Toml.value : Nat → Toml.Decoder Value
  | 0 => valueOver none
  | depth + 1 => valueOver (some (value depth))

/-- A line of a document that says something. -/
inductive Toml.Line where
  /-- The lines after this one belong to the table at this path. -/
  | header (path : List String)
  /-- The lines after this one belong to one more table in the list at this path. -/
  | itemHeader (path : List String)
  /-- A key has a value. -/
  | assign (path : List String) (value : Value)

/-- What follows two closing brackets. -/
def Toml.readItemEnd : List Char → Except Fault (Unit × List Char)
  | ']' :: ']' :: rest => .ok ((), rest)
  | _ => .error .malformed

/-- The reader of the two closing brackets of a header. -/
def Toml.itemEnd : Toml.Decoder Unit :=
  byFirst (fun c rest => readItemEnd (c :: rest)) fun {c cs a rest} h => by
    unfold readItemEnd at h
    split at h
    · rename_i hc
      cases h
      cases hc
      simp
    · cases h

/-- The reader of the path of a header, after its first bracket. -/
def Toml.header (cs : List Char) : Except Fault (Line × List Char) :=
  match cs with
  | '[' :: rest => (key.andThen fun path => itemEnd.map fun _ => Line.itemHeader path).run rest
  | _ => (key.andThen fun path => (mark ']').map fun _ => Line.header path).run cs

/-- The header of a table makes the text no longer. -/
theorem Toml.length_header {cs rest : List Char} {line : Line} (h : header cs = .ok (line, rest)) :
    rest.length ≤ cs.length := by
  unfold header at h
  split at h
  · exact Nat.le_succ_of_le (Nat.le_of_lt (Reader.shortens _ h))
  · exact Nat.le_of_lt (Reader.shortens _ h)

/-- The reader of a line that says something, without its end. -/
def Toml.line : Toml.Decoder Line :=
  byFirst
    (fun c rest =>
      if c = '[' then header rest
      else ((keyValue (value maxDepth)).map fun (path, v) => Line.assign path v).run (c :: rest))
    fun {c cs a rest} h => by
      split at h
      · exact length_header h
      · exact Nat.le_of_lt_succ (Reader.shortens _ h)

/-- The tables after one more line, and the path of the table that the next lines belong to. -/
def Toml.Line.apply (line : Line) (root : Entries) (current : List String) : Except Fault (Entries × List String) :=
  match line with
  | .header path => (openTable path root).map fun root => (root, path)
  | .itemHeader path => (openItem path root).map fun root => (root, path)
  | .assign path v => (descend false current (Toml.assign path v) .header root).map fun root => (root, current)

/-- The tables after all lines of a document. -/
def Toml.readLines (root : Entries) (current : List String) (cs : List Char) : Except Fault Entries :=
  if (skipComment cs).isEmpty then .ok root
  else match _hb : lineBreak? cs with
    | some rest => readLines root current rest
    | none => match _hl : line.run cs with
      | .error fault => .error fault
      | .ok (line, rest) => match line.apply root current with
        | .error fault => .error fault
        | .ok (root, current) => match _hn : lineBreak? rest with
          | some rest => readLines root current rest
          | none => if (skipComment rest).isEmpty then .ok root else .error .malformed
termination_by cs.length
decreasing_by
  · exact length_lineBreak? _hb
  · exact Nat.lt_trans (length_lineBreak? _hn) (Reader.shortens _ _hl)

/-- The tables of a document. A byte order mark in front is passed over. -/
def Toml.read (text : String) : Except Fault Entries :=
  readLines [] [] (match text.toList with
    | '\ufeff' :: cs => cs
    | cs => cs)

end GateRules
