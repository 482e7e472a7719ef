/-!
# Blank text

A text is blank when it has no character but white space, in the sense of the Unicode property `White_Space`.
-/

namespace GateRules

/-- The characters with the property `White_Space`. -/
def Text.isSpace (c : Char) : Bool :=
  let n := c.toNat
  (0x09 ≤ n && n ≤ 0x0D) || n == 0x20 || n == 0x85 || n == 0xA0 || n == 0x1680 || (0x2000 ≤ n && n ≤ 0x200A) ||
    n == 0x2028 || n == 0x2029 || n == 0x202F || n == 0x205F || n == 0x3000

/-- Whether `text` holds nothing but white space; the empty text does. -/
def Text.isBlank (text : String) : Bool := text.toList.all isSpace

end GateRules
