/-
# Readers

A reader takes a value from the front of a text, or refuses the text. Repetition
is bounded by the length of the text, which is never reached, since every round
of it takes at least one character.
-/

import JavaStructure.Toml.Scalar

namespace JavaStructure.Toml

/-- A function from a text to a value and the rest of the text. -/
abbrev Reader (α : Type) := StateT (List Char) Option α

namespace Reader

/-- The next character, left where it is. -/
def peek : Reader (Option Char) := do
  return (← get).head?

/-- Whether a word stands in front. -/
def sees (word : String) : Reader Bool := do
  return (Text.dropWord? word.toList (← get)).isSome

/-- Take a word. -/
def word (expected : String) : Reader Unit := do
  match Text.dropWord? expected.toList (← get) with
  | some rest => set rest
  | none => failure

/-- Take a word if it stands there, and say whether it did. -/
def optional (expected : String) : Reader Bool := do
  match Text.dropWord? expected.toList (← get) with
  | some rest => set rest; return true
  | none => return false

/-- Take all characters up to the first that fails the test. -/
def takeWhile (test : Char → Bool) : Reader (List Char) :=
  modifyGet (·.span test)

/-- Take any character. -/
def next : Reader Char := do
  match ← get with
  | c :: rest => set rest; return c
  | [] => failure

/-- Repeat up to a number of times, until there is no item any more. -/
def collectUpTo (item : Reader (Option α)) : Nat → Reader (List α)
  | 0 => failure
  | bound + 1 => do
      match ← item with
      | none => return []
      | some value => return value :: (← collectUpTo item bound)

/-- Repeat until there is no item any more. -/
def collect (item : Reader (Option α)) : Reader (List α) := do
  collectUpTo item ((← get).length + 1)

/-- A blank inside a line. -/
def isLineBlank (c : Char) : Bool :=
  c == ' ' || c == '\t'

/-- A character that may stand in a comment or a text as it is: a tab, or
anything but a control character. -/
def isPlain (c : Char) : Bool :=
  c == '\t' || (0x20 ≤ c.toNat && c.toNat ≠ 0x7F)

/-- Skip blanks inside a line. -/
def blanks : Reader Unit := do
  discard (takeWhile isLineBlank)

/-- Take a line end if one stands there, and say whether it did. -/
def lineEnd? : Reader Bool := do
  if ← optional "\n" then return true else optional "\r\n"

/-- Take a comment if one stands there. -/
def comment : Reader Unit := do
  if ← optional "#" then discard (takeWhile isPlain)

/-- Skip what may follow a statement on its line, and the line end. -/
def lineTrailing : Reader Unit := do
  blanks
  comment
  if (← peek).isSome then
    unless ← lineEnd? do failure

/-- One blank part between the items of an array: blanks and a line end, before
which a comment may stand. -/
def gapLine? : Reader (Option Unit) := do
  blanks
  if ← sees "#" then
    comment
    if ← lineEnd? then return some () else failure
  else if ← lineEnd? then return some ()
  else return none

/-- Skip blanks, comments and line ends. -/
def gap : Reader Unit := do
  discard (collect gapLine?)

end Reader

end JavaStructure.Toml
