/-
# Entity references

The two ways in which text is made safe inside an attribute value: type and
operation names have only their angle brackets replaced, the free text of a
statement has all five predefined entities replaced.
-/

import JavaStructure.Text.Blank

namespace JavaStructure.Text

/-- The entity reference that stands for an angle bracket. -/
def angleReference : Char → List Char
  | '>' => "&gt;".toList
  | '<' => "&lt;".toList
  | c => [c]

/-- The entity reference that stands for a character with one. -/
def entityReference : Char → List Char
  | '>' => "&gt;".toList
  | '<' => "&lt;".toList
  | '&' => "&amp;".toList
  | '\'' => "&apos;".toList
  | '"' => "&quot;".toList
  | c => [c]

/-- A name with its angle brackets replaced. Type arguments and the name of a
constructor are the only text in a name that looks like markup. -/
def escapeName (text : String) : String :=
  mapChars (·.flatMap angleReference) text

/-- Free text with every markup character replaced. -/
def escapeText (text : String) : String :=
  mapChars (·.flatMap entityReference) text

end JavaStructure.Text
