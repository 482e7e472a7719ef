import GateRules.Toml.Token

/-!
# Numbers and times in TOML

What stands in the place of a value and is no string, list or table is a word. The words are the truth values and the
written forms of integers, floating point numbers, dates and times. A registry has no use for any number or time, so a
word is only told to be one of them or not, and its value is not looked at: an integer may be of any size, may lack its
digits after the sign of its base, and may go on with anything after its first underscore.
-/

namespace GateRules

/-- Whether a character may be part of a word. -/
def Toml.isWordChar (c : Char) : Bool := !isBlank c && c ∉ ['=', ',', '[', ']', '\x7b', '\x7d', '#', '\r', '\n']

/-- Whether a word that came before blanks goes on after them. -/
def Toml.continues (cs : List Char) : Bool :=
  (skipBlanks cs).head?.any fun c => isWordChar c && c != '"' && c != '\''

/-- A word, and what follows it. Blanks belong to the word if it goes on after them. -/
def Toml.spanWord : List Char → List Char × List Char
  | [] => ([], [])
  | c :: cs =>
    if isWordChar c || (isBlank c && continues cs) then
      let (word, rest) := spanWord cs
      (c :: word, rest)
    else ([], c :: cs)

/-- A word and what follows it make up the text. -/
theorem Toml.spanWord_append (cs : List Char) : (spanWord cs).1 ++ (spanWord cs).2 = cs := by
  induction cs with
  | nil => rfl
  | cons c cs ih =>
    unfold spanWord
    split
    · simpa using ih
    · rfl

/-- Digits of one kind, with single underscores between them. -/
def Toml.isDigits (isDigit : Char → Bool) : List Char → Bool
  | [] => false
  | [c] => isDigit c
  | c :: '_' :: rest => isDigit c && isDigits isDigit rest
  | c :: rest => isDigit c && isDigits isDigit rest

/-- A word without the sign in front of it. -/
def Toml.unsigned : List Char → List Char
  | '+' :: rest => rest
  | '-' :: rest => rest
  | word => word

/-- Whether there is a zero in front of a word that is more than a zero. -/
def Toml.hasLeadingZero (word : List Char) : Bool := word.length != 1 && word.head? == some '0'

/-- Whether every underscore of a word stands between two hexadecimal digits. -/
def Toml.underscoresFit (word : List Char) : Bool :=
  let isHex (c : Char) : Bool := (Text.hexDigit? c).isSome
  word.head? != some '_' && word.getLast? != some '_' &&
    (word.zip word.tail).all fun (a, b) => (a != '_' || isHex b) && (b != '_' || isHex a)

/-- The digits of an integer whose base is not ten. -/
def Toml.isBased (isDigit : Char → Bool) (word : List Char) : Bool :=
  word.all (fun c => isDigit c || c == '_') && underscoresFit word

/-- An integer without its sign. Nothing after its first underscore may be taken for part of another number. -/
def Toml.isDecimal (word : List Char) : Bool :=
  !hasLeadingZero word && match word.dropWhile Char.isDigit with
    | [] => !word.isEmpty
    | '_' :: rest => underscoresFit word && rest.all fun c => c ∉ ['.', 'e', 'E', ' ']
    | _ => false

/-- An integer. -/
def Toml.isInteger (word : List Char) : Bool :=
  match word with
  | '0' :: 'x' :: digits => isBased (fun c => (Text.hexDigit? c).isSome) digits
  | '0' :: 'o' :: digits => isBased (fun c => '0' ≤ c && c ≤ '7') digits
  | '0' :: 'b' :: digits => isBased (fun c => c == '0' || c == '1') digits
  | _ => isDecimal (unsigned word)

/-- The word before the first character that passes a test, and from there on. -/
def Toml.splitAt (test : Char → Bool) (word : List Char) : List Char × List Char :=
  (word.takeWhile fun c => !test c, word.dropWhile fun c => !test c)

/-- A floating point number: with a fraction, an exponent or both, or one of the special numbers. -/
def Toml.isFloat (word : List Char) : Bool :=
  let body := unsigned word
  let (mantissa, power) := splitAt (fun c => c == 'e' || c == 'E') body
  let (whole, fraction) := splitAt (· == '.') mantissa
  let goodPower := match power with
    | [] => true
    | _ :: digits => isDigits Char.isDigit (unsigned digits)
  let goodFraction := match fraction with
    | [] => true
    | _ :: digits => isDigits Char.isDigit digits
  body = ['i', 'n', 'f'] || body = ['n', 'a', 'n'] ||
    (isDigits Char.isDigit whole && !hasLeadingZero whole && goodFraction && goodPower &&
      !(fraction.isEmpty && power.isEmpty))

/-- The number that exactly so many digits stand for. -/
def Toml.fixedNumber? (digits : Nat) (word : List Char) : Option Nat :=
  if word.length = digits ∧ word.all Char.isDigit then
    some (word.foldl (fun n c => n * 10 + (c.toNat - '0'.toNat)) 0)
  else none

/-- Whether a word is a number of so many digits within bounds. -/
def Toml.isWithin (digits low high : Nat) (word : List Char) : Bool :=
  (fixedNumber? digits word).any fun n => low ≤ n && n ≤ high

/-- How many days a month has. -/
def Toml.daysIn (year month : Nat) : Nat :=
  if month = 2 then if (year % 4 = 0 ∧ year % 100 ≠ 0) ∨ year % 400 = 0 then 29 else 28
  else if month = 4 ∨ month = 6 ∨ month = 9 ∨ month = 11 then 30
  else 31

/-- A date, as year, month and day. -/
def Toml.isDate (word : List Char) : Bool :=
  match fixedNumber? 4 (word.take 4), fixedNumber? 2 ((word.drop 5).take 2) with
  | some year, some month =>
    word.length == 10 && word[4]? == some '-' && word[7]? == some '-' && 1 ≤ month && month ≤ 12 &&
      isWithin 2 1 (daysIn year month) (word.drop 8)
  | _, _ => false

/-- A time of day; the seconds may be missing, and may have a fraction. -/
def Toml.isTime (word : List Char) : Bool :=
  let minutes := isWithin 2 0 23 (word.take 2) && word[2]? == some ':' && isWithin 2 0 59 ((word.drop 3).take 2)
  let seconds := match word.drop 5 with
    | [] => true
    | ':' :: rest => isWithin 2 0 60 (rest.take 2) && match rest.drop 2 with
      | [] => true
      | '.' :: fraction => !fraction.isEmpty && fraction.all Char.isDigit
      | _ => false
    | _ => false
  minutes && seconds

/-- The distance of a time from universal time: none is given, it is zero, or it has a sign, hours and minutes. -/
def Toml.isZone (word : List Char) : Bool :=
  match word with
  | [] => true
  | ['Z'] | ['z'] => true
  | sign :: rest =>
    (sign == '+' || sign == '-') && rest.length == 5 && isWithin 2 0 23 (rest.take 2) && rest[2]? == some ':' &&
      isWithin 2 0 59 (rest.drop 3)

/-- A date, a time of day, or both with or without a zone. -/
def Toml.isMoment (word : List Char) : Bool :=
  let afterDate := word.drop 10
  let (time, zone) := splitAt (fun c => c == 'Z' || c == 'z' || c == '+' || c == '-') (afterDate.drop 1)
  isDate word || isTime word ||
    (isDate (word.take 10) && (afterDate.head?.any fun c => c == 'T' || c == 't' || c == ' ') && isTime time &&
      isZone zone)

/-- Whether a word is a number or a time. -/
def Toml.isNumeric (word : List Char) : Bool := isInteger word || isFloat word || isMoment word

theorem Toml.isNumeric_nil : isNumeric [] = false := by decide

end GateRules
