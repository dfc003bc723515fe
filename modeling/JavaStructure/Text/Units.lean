/-
# Sixteen-bit units

The encoding of text in units of sixteen bits: one unit for a character of the
basic plane, a surrogate pair for any other.
-/

namespace JavaStructure.Text

/-- The units of one character. -/
def unitsOfChar (c : Char) : List Nat :=
  if c.toNat < 0x10000 then [c.toNat]
  else
    let offset := c.toNat - 0x10000
    [0xD800 + offset / 0x400, 0xDC00 + offset % 0x400]

/-- The units of a text, in order. -/
def units (text : List Char) : List Nat :=
  text.flatMap unitsOfChar

end JavaStructure.Text
