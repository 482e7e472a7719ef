import GateRules.Json.Fault
import GateRules.Text.Hex
import GateRules.Text.Reader

/-!
# Strings in JSON

How a text is written between quotes, and how it is read. Writing escapes the quote, the backslash and the control
characters and nothing else; reading accepts every escape of JSON. A code unit of a surrogate pair has to come with its
partner.
-/

namespace GateRules

/-- The number that four hexadecimal digits stand for. The text has ended if fewer than four bytes are left. -/
def Json.readHex4 : List Char → Except Fault (Nat × List Char)
  | a :: b :: c :: d :: rest =>
    match Text.hexValue? [a, b, c, d] with
    | some unit => .ok (unit, rest)
    | none => .error .garbled
  | cs => if (String.ofList cs).utf8ByteSize < 4 then .error .ended else .error .garbled

/-- The character after `\u`, written as one code unit or as a pair of surrogates. -/
def Json.readCodeUnits (cs : List Char) : Except Fault (Char × List Char) :=
  match readHex4 cs with
  | .error fault => .error fault
  | .ok (unit, rest) =>
    if 0xDC00 ≤ unit ∧ unit ≤ 0xDFFF then .error .garbled
    else if unit < 0xD800 ∨ 0xDBFF < unit then .ok (Char.ofNat unit, rest)
    else match rest with
      | [] | ['\\'] => .error .ended
      | '\\' :: 'u' :: rest => match readHex4 rest with
        | .error fault => .error fault
        | .ok (low, rest) =>
          if low < 0xDC00 ∨ 0xDFFF < low then .error .garbled
          else .ok (Char.ofNat (0x10000 + (unit - 0xD800) * 0x400 + (low - 0xDC00)), rest)
      | _ => .error .garbled

/-- The character that stands for itself, or for a control character, after a backslash. -/
def Json.simpleEscape? : Char → Option Char
  | '"' => some '"'
  | '\\' => some '\\'
  | '/' => some '/'
  | 'b' => some '\x08'
  | 'f' => some '\x0c'
  | 'n' => some '\n'
  | 'r' => some '\r'
  | 't' => some '\t'
  | _ => none

/-- What a backslash and the text after it stand for. -/
def Json.readEscape : List Char → Except Fault (Char × List Char)
  | [] => .error .ended
  | c :: rest =>
    if c = 'u' then readCodeUnits rest
    else match simpleEscape? c with
      | some d => .ok (d, rest)
      | none => .error .garbled

/-- Four hexadecimal digits are taken from the text. -/
theorem Json.length_readHex4 {cs rest : List Char} {n : Nat} (h : readHex4 cs = .ok (n, rest)) :
    rest.length < cs.length := by
  unfold readHex4 at h
  split at h
  · split at h
    · cases h; simp only [List.length_cons]; omega
    · cases h
  · split at h <;> cases h

/-- An escape by code units takes up some of the text, whether it is one unit or a pair. -/
theorem Json.length_readCodeUnits {cs rest : List Char} {c : Char} (h : readCodeUnits cs = .ok (c, rest)) :
    rest.length < cs.length := by
  unfold readCodeUnits at h
  split at h
  · cases h
  rename_i hr
  have := length_readHex4 hr
  split at h
  · cases h
  split at h
  · simp only [Except.ok.injEq, Prod.mk.injEq] at h
    exact h.2 ▸ this
  split at h
  · cases h
  · cases h
  · split at h
    · cases h
    rename_i hl
    have := length_readHex4 hl
    split at h
    · cases h
    simp only [Except.ok.injEq, Prod.mk.injEq] at h
    rw [← h.2]
    simp only [List.length_cons] at *
    omega
  · cases h

/-- Every escape takes up some of the text. -/
theorem Json.length_readEscape {cs rest : List Char} {c : Char} (h : readEscape cs = .ok (c, rest)) :
    rest.length < cs.length := by
  unfold readEscape at h
  split at h
  · cases h
  · split at h
    · exact Nat.lt_succ_of_lt (length_readCodeUnits h)
    · split at h
      · cases h; simp
      · cases h

/-- The text up to the closing quote, and what follows the quote. -/
def Json.readString (cs : List Char) : Except Fault (List Char × List Char) :=
  match cs with
  | [] => .error .ended
  | c :: rest =>
    if c = '"' then .ok ([], rest)
    else if c = '\\' then
      match _h : readEscape rest with
      | .error fault => .error fault
      | .ok (d, rest) => Reader.mapValue (d :: ·) (readString rest)
    else if c < ' ' then .error .garbled
    else Reader.mapValue (c :: ·) (readString rest)
termination_by cs.length
decreasing_by
  · exact Nat.lt_succ_of_lt (length_readEscape _h)
  · simp

/-- A string takes up some of the text, at least its closing quote. -/
theorem Json.length_readString {cs text rest : List Char} (h : readString cs = .ok (text, rest)) :
    rest.length < cs.length := by
  fun_induction readString cs generalizing text rest with
  | case1 => cases h
  | case2 => simp_all
  | case3 => cases h
  | case4 cs d rest' hr _ ih =>
    obtain ⟨more, hm, -⟩ := Reader.mapValue_eq_ok_iff.1 h
    have := ih hm
    have := length_readEscape hr
    simp only [List.length_cons]
    omega
  | case5 => cases h
  | case6 c cs _ _ _ ih =>
    obtain ⟨more, hm, -⟩ := Reader.mapValue_eq_ok_iff.1 h
    have := ih hm
    simp only [List.length_cons]
    omega

/-- How a character is written between quotes. -/
def Json.escape (c : Char) : List Char :=
  if c = '"' then ['\\', '"']
  else if c = '\\' then ['\\', '\\']
  else if c = '\x08' then ['\\', 'b']
  else if c = '\x0c' then ['\\', 'f']
  else if c = '\n' then ['\\', 'n']
  else if c = '\r' then ['\\', 'r']
  else if c = '\t' then ['\\', 't']
  else if c < ' ' then ['\\', 'u', '0', '0', Nat.digitChar (c.toNat / 16), Nat.digitChar (c.toNat % 16)]
  else [c]

/-- A text between quotes. -/
def Json.writeString (text : List Char) : List Char := '"' :: text.flatMap escape ++ ['"']

end GateRules
