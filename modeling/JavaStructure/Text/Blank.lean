/-
# Blank characters

The characters of the Unicode property White_Space, and the two ways text is
freed of them: at its ends, or altogether. Everything here works on lists of
characters; `Text.mapChars` carries such a function to strings.
-/

namespace JavaStructure.Text

/-- Apply a function on character lists to a string. -/
def mapChars (change : List Char → List Char) (text : String) : String :=
  .ofList (change text.toList)

/-- The characters with the Unicode property White_Space. The property is a
closed list of the standard: five controls, the space, and nineteen more. -/
def isBlank (c : Char) : Bool :=
  (0x09 ≤ c.toNat && c.toNat ≤ 0x0D) || c.toNat == 0x20 || c.toNat == 0x85 ||
    c.toNat == 0xA0 || c.toNat == 0x1680 || (0x2000 ≤ c.toNat && c.toNat ≤ 0x200A) ||
    c.toNat == 0x2028 || c.toNat == 0x2029 || c.toNat == 0x202F || c.toNat == 0x205F ||
    c.toNat == 0x3000

/-- The blank characters at which a line may be broken: all but the three
non-breaking spaces. -/
def isBreakingBlank (c : Char) : Bool :=
  isBlank c && !(c.toNat == 0xA0 || c.toNat == 0x2007 || c.toNat == 0x202F)

/-- Drop the longest final run of characters that satisfy the test. -/
def dropEndWhile (test : Char → Bool) (text : List Char) : List Char :=
  (text.reverse.dropWhile test).reverse

/-- Drop the blanks in front. -/
def trimStart (text : List Char) : List Char :=
  text.dropWhile isBlank

/-- Drop the blanks behind. -/
def trimEnd (text : List Char) : List Char :=
  dropEndWhile isBlank text

/-- Drop the blanks at both ends. -/
def trim (text : List Char) : List Char :=
  trimEnd (trimStart text)

/-- Drop every blank, inner ones included. -/
def removeBlanks (text : List Char) : List Char :=
  text.filter fun c => !isBlank c

/-- A string without the blanks at its ends. -/
def trimmed (text : String) : String :=
  mapChars trim text

/-- A string without any blank. -/
def unspaced (text : String) : String :=
  mapChars removeBlanks text

theorem dropEndWhile_append_singleton (test : Char → Bool) (text : List Char) (c : Char) :
    dropEndWhile test (text ++ [c]) = if test c then dropEndWhile test text else text ++ [c] := by
  simp only [dropEndWhile, List.reverse_append, List.reverse_singleton, List.singleton_append,
    List.dropWhile_cons]
  split <;> simp

end JavaStructure.Text
