/-
# Erased type names

A type as written, without its type arguments, its array brackets and the dots
of a variable-arity parameter.
-/

import JavaStructure.Text.Cut

namespace JavaStructure.Names

/-- A bracket of an array type, or a blank between brackets. -/
def isBracketOrBlank (c : Char) : Bool :=
  c == '[' || c == ']' || Text.isBlank c

/-- The erased form of a type text: what stands before the first angle
bracket, less trailing dots in threes, less brackets, less blanks. -/
def eraseChars (text : List Char) : List Char :=
  let base := Text.dropEndWords "...".toList (text.takeWhile fun c => c != '<')
  Text.trim (Text.dropEndWhile isBracketOrBlank base)

/-- The erased form of a type text. -/
def erase (text : String) : String :=
  Text.mapChars eraseChars text

end JavaStructure.Names
