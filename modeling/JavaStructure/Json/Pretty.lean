/-
# The indented form of JSON

One item to a line, two spaces for each level, a colon and a space after a
key. An empty array or object is written without a line break. Characters
outside the control range are written as they are.
-/

import JavaStructure.Json.Value

namespace JavaStructure.Json

/-- The escape of a character inside a string. Control characters without a
letter of their own are written with four hexadecimal digits. -/
def escapeChar (c : Char) : List Char :=
  match c with
  | '"' => ['\\', '"']
  | '\\' => ['\\', '\\']
  | '\x08' => ['\\', 'b']
  | '\x0c' => ['\\', 'f']
  | '\n' => ['\\', 'n']
  | '\r' => ['\\', 'r']
  | '\t' => ['\\', 't']
  | _ =>
      if c.toNat < 0x20 then
        ['\\', 'u', '0', '0', (c.toNat / 16).digitChar, (c.toNat % 16).digitChar]
      else [c]

/-- A string in quotes. -/
def quote (text : String) : String :=
  .ofList ('"' :: text.toList.flatMap escapeChar ++ ['"'])

/-- A line break and the indentation of a level. -/
def newLine (level : Nat) : String :=
  .ofList ('\n' :: List.replicate (2 * level) ' ')

mutual

/-- The indented text of a value that stands at a level. -/
def prettyAt (level : Nat) : Json → String
  | .null => "null"
  | .bool true => "true"
  | .bool false => "false"
  | .number value => .ofList (Nat.toDigits 10 value)
  | .string value => quote value
  | .array [] => "[]"
  | .array (item :: rest) =>
      "[" ++ newLine (level + 1) ++ prettyAt (level + 1) item ++
        prettyItems (level + 1) rest ++ newLine level ++ "]"
  | .object [] => "\x7b\x7d"
  | .object ((key, value) :: rest) =>
      "\x7b" ++ newLine (level + 1) ++ quote key ++ ": " ++ prettyAt (level + 1) value ++
        prettyMembers (level + 1) rest ++ newLine level ++ "\x7d"

/-- The items after the first, each on a line of its own. -/
def prettyItems (level : Nat) : List Json → String
  | [] => ""
  | item :: rest => "," ++ newLine level ++ prettyAt level item ++ prettyItems level rest

/-- The members after the first, each on a line of its own. -/
def prettyMembers (level : Nat) : List (String × Json) → String
  | [] => ""
  | (key, value) :: rest =>
      "," ++ newLine level ++ quote key ++ ": " ++ prettyAt level value ++
        prettyMembers level rest

end

/-- The indented text of a value. -/
def pretty (value : Json) : String :=
  prettyAt 0 value

end JavaStructure.Json
