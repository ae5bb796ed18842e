import TextOps.Unicode.Lookup

/-!
# `TextOps/Unicode/Property.lean` — the character properties behind the named classes

Decimal digits (category Nd) come in runs of ten, so their table holds the zeros alone. Invisible
characters are those of the categories Zs, Zl, Zp, Cc, Cf and Co, as inclusive ranges. Both tables
are searched by halving. White space is the `White_Space` property, short enough to be written out.
-/

set_option autoImplicit false

namespace TextOps.Unicode

/-- The zero of every run of ten decimal digits, in ascending order and at least ten apart. -/
def digitZeros : Array Nat := #[
  0x0030, 0x0660, 0x06F0, 0x07C0, 0x0966, 0x09E6, 0x0A66, 0x0AE6, 0x0B66,
  0x0BE6, 0x0C66, 0x0CE6, 0x0D66, 0x0DE6, 0x0E50, 0x0ED0, 0x0F20, 0x1040,
  0x1090, 0x17E0, 0x1810, 0x1946, 0x19D0, 0x1A80, 0x1A90, 0x1B50, 0x1BB0,
  0x1C40, 0x1C50, 0xA620, 0xA8D0, 0xA900, 0xA9D0, 0xA9F0, 0xAA50, 0xABF0,
  0xFF10, 0x104A0, 0x10D30, 0x11066, 0x110F0, 0x11136, 0x111D0, 0x112F0, 0x11450,
  0x114D0, 0x11650, 0x116C0, 0x11730, 0x118E0, 0x11950, 0x11C50, 0x11D50, 0x11DA0,
  0x11F50, 0x16A60, 0x16AC0, 0x16B50, 0x1D7CE, 0x1D7D8, 0x1D7E2, 0x1D7EC, 0x1D7F6,
  0x1E140, 0x1E2F0, 0x1E4F0, 0x1E950, 0x1FBF0]

/-- The ranges of characters that render as nothing, in ascending order and disjoint. -/
def invisibleRanges : Array (Nat × Nat) := #[
  (0x0000, 0x0020), (0x007F, 0x00A0), (0x00AD, 0x00AD), (0x0600, 0x0605),
  (0x061C, 0x061C), (0x06DD, 0x06DD), (0x070F, 0x070F), (0x0890, 0x0891),
  (0x08E2, 0x08E2), (0x1680, 0x1680), (0x180E, 0x180E), (0x2000, 0x200F),
  (0x2028, 0x202F), (0x205F, 0x2064), (0x2066, 0x206F), (0x3000, 0x3000),
  (0xE000, 0xF8FF), (0xFEFF, 0xFEFF), (0xFFF9, 0xFFFB), (0x110BD, 0x110BD),
  (0x110CD, 0x110CD), (0x13430, 0x1343F), (0x1BCA0, 0x1BCA3), (0x1D173, 0x1D17A),
  (0xE0001, 0xE0001), (0xE0020, 0xE007F), (0xF0000, 0xFFFFD), (0x100000, 0x10FFFD)]

/-- Whether a character is a decimal digit of any script. -/
def isDigit (c : Char) : Bool := inDecade digitZeros c.toNat

/-- Whether a character renders as nothing: a separator, a control, a format character or one of
private use. -/
def isInvisible (c : Char) : Bool := inRanges invisibleRanges c.toNat

/-- Whether a character has the property `White_Space`. -/
def isWhiteSpace (c : Char) : Bool :=
  let n := c.toNat
  (0x09 ≤ n && n ≤ 0x0D) || n == 0x20 || n == 0x85 || n == 0xA0 || n == 0x1680
    || (0x2000 ≤ n && n ≤ 0x200A) || n == 0x2028 || n == 0x2029 || n == 0x202F
    || n == 0x205F || n == 0x3000

/-- Whether a line may be broken at a white-space character: all of them but the three no-break
spaces. -/
def isBreakingWhiteSpace (c : Char) : Bool :=
  isWhiteSpace c && !(c.toNat == 0xA0 || c.toNat == 0x2007 || c.toNat == 0x202F)

def isAscii (c : Char) : Bool := c.toNat < 0x80

def isSingleWidth (c : Char) : Bool := c.utf8Size == 1

end TextOps.Unicode
