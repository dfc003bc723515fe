/-
# Quoted text

The four ways to write a text: in double quotes, where a backslash escapes, or
in single quotes, where nothing does; and each of them on one line between
single marks, or on several between threefold ones. Line ends in a text of
several lines are line feeds, however they are written.
-/

import JavaStructure.Toml.Reader

namespace JavaStructure.Toml.Quoted

open Reader

/-- The character of a number, which must be one. -/
def charOf? (number : Nat) : Option Char :=
  if h : number.isValidChar then some (.ofNatAux number h) else none

/-- A character by a given number of hexadecimal digits. -/
def numbered (length : Nat) : Reader Char := do
  let digits := (← get).take length
  if digits.length = length ∧ digits.all isHexDigit then
    set ((← get).drop length)
    (charOf? (valueOf 16 digits)).getDM failure
  else failure

/-- What a backslash and the characters behind it stand for. The backslash is
taken already. -/
def escaped : Reader Char := do
  match ← next with
  | 'b' => return '\x08'
  | 't' => return '\t'
  | 'n' => return '\n'
  | 'f' => return '\x0c'
  | 'r' => return '\r'
  | '"' => return '"'
  | '\\' => return '\\'
  | 'u' => numbered 4
  | 'U' => numbered 8
  | _ => failure

/-- One character of a text on one line, or nothing before the closing mark. -/
def lineChar? (mark : Char) (escapes : Bool) : Reader (Option Char) := do
  if (← peek) = some mark then return none
  else
    match ← next with
    | c => if escapes && c == '\\' then return some (← escaped)
           else if isPlain c then return some c
           else failure

/-- A text on one line. -/
def onLine (mark : Char) (escapes : Bool) : Reader String := do
  word mark.toString
  let text ← collect (lineChar? mark escapes)
  word mark.toString
  return .ofList text

/-- One line end with the blanks in front of it. Without a line end, the blanks
stay where they are. -/
def blankLine? : Reader (Option Unit) := do
  let start ← get
  blanks
  if ← lineEnd? then return some ()
  else
    set start
    return none

/-- Skip blanks and line ends behind a backslash that ends a line. Says whether
it ended one at all. -/
def joinLines : Reader Bool := do
  if (← collect blankLine?).isEmpty then return false
  else
    blanks
    return true

/-- The mark of a text on several lines. -/
def triple (mark : Char) : String :=
  .ofList [mark, mark, mark]

/-- One part of a text on several lines, or nothing before the closing mark. -/
def block? (mark : Char) (escapes : Bool) : Reader (Option (List Char)) := do
  if ← sees (triple mark) then return none
  else if ← lineEnd? then return some ['\n']
  else
    match ← next with
    | c => if escapes && c == '\\' then
             if ← joinLines then return some [] else return some [← escaped]
           else if isPlain c then return some [c]
           else failure

/-- A text on several lines. A line end right behind the opening mark does not
count, and up to two marks may stand before the closing one. -/
def onLines (mark : Char) (escapes : Bool) : Reader String := do
  word (triple mark)
  discard lineEnd?
  let text ← collect (block? mark escapes)
  word (triple mark)
  let first ← optional mark.toString
  let second ← if first then optional mark.toString else pure false
  return .ofList (text.flatten ++ (if first then [mark] else []) ++ if second then [mark] else [])

/-- A text in quotes, if a quote stands there. -/
def text? : Reader (Option String) := do
  match ← peek with
  | some '"' => if ← sees (triple '"') then return some (← onLines '"' true)
                else return some (← onLine '"' true)
  | some '\'' => if ← sees (triple '\'') then return some (← onLines '\'' false)
                 else return some (← onLine '\'' false)
  | _ => return none

end JavaStructure.Toml.Quoted
