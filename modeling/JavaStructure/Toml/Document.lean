/-
# TOML documents

Keys, values that hold others, and the statements of a document, read one after
the other into the members of its outermost table. Containers may be nested
less than eighty deep, and a key has less than eighty parts.
-/

import JavaStructure.Toml.Quoted

namespace JavaStructure.Toml

open Reader

/-- How deep containers may be nested, and how many parts a key may have. -/
def depthLimit : Nat := 79

/-- A character of a key without quotes. -/
def isBareChar (c : Char) : Bool :=
  c.isAlphanum || c == '_' || c == '-'

/-- One part of a key, with the blanks around it. -/
def keyPart : Reader String := do
  blanks
  let part ← match ← peek with
    | some '"' => Quoted.onLine '"' true
    | some '\'' => Quoted.onLine '\'' false
    | _ => do
        let part ← takeWhile isBareChar
        if part.isEmpty then failure else pure (.ofList part)
  blanks
  return part

/-- A further part of a key, behind a dot. -/
def furtherPart? : Reader (Option String) := do
  if ← optional "." then return some (← keyPart) else return none

/-- A key: the parts to pass, and the last one. -/
def key : Reader (List String × String) := do
  let parts := (← keyPart) :: (← collect furtherPart?)
  if depthLimit < parts.length then failure
  else
    match parts.reverse with
    | last :: passed => return (passed.reverse, last)
    | [] => failure

/-- A value of one word. -/
def scalar : Reader Value := do
  let (word, rest) := cutWord (← get)
  set rest
  (scalar? word).getDM failure

/-- The items of an array behind the first, up to the closing bracket. -/
def arrayItem? (value : Reader Value) : Reader (Option Value) := do
  if ← optional "," then
    gap
    if ← sees "]" then return none
    else
      let item ← value
      gap
      return some item
  else return none

/-- An array. A comma may follow its last item. -/
def array (value : Reader Value) : Reader Value := do
  word "["
  gap
  if ← optional "]" then return .array []
  else
    let first ← value
    gap
    let others ← collect (arrayItem? value)
    word "]"
    return .array (first :: others)

/-- A key with its value, separated by an equals sign. -/
def keyValue (value : Reader Value) : Reader (List String × String × Value) := do
  let (path, last) ← key
  word "="
  blanks
  return (path, last, ← value)

/-- Add members one by one. -/
def addMembers (members : Members) : List (List String × String × Value) → Option Members
  | [] => some members
  | (path, last, value) :: rest =>
      (members.addDotted path last value).bind fun members => addMembers members rest

/-- A member of an inline table behind the first. -/
def furtherMember? (value : Reader Value) : Reader (Option (List String × String × Value)) := do
  if ← optional "," then
    let member ← keyValue value
    blanks
    return some member
  else return none

/-- An inline table. It stands on one line, and no comma follows its last
member. -/
def inlineTable (value : Reader Value) : Reader Value := do
  word "\x7b"
  blanks
  if ← optional "\x7d" then return .table .inlined []
  else
    let first ← keyValue value
    blanks
    let others ← collect (furtherMember? value)
    word "\x7d"
    match addMembers [] (first :: others) with
    | some members => return .table .inlined members
    | none => failure

/-- A value that holds at most `depth` containers in each other. -/
def value : Nat → Reader Value
  | 0 => do
      match ← Quoted.text? with
      | some text => return .text text
      | none => scalar
  | depth + 1 => do
      match ← Quoted.text? with
      | some text => return .text text
      | none =>
          if ← sees "[" then array (value depth)
          else if ← sees "\x7b" then inlineTable (value depth)
          else scalar

/-- A document read in part. -/
structure Draft where
  members : Members := []
  /-- The table that the next members belong to. -/
  current : List String := []

namespace Draft

/-- Change the members of a table. -/
def change (draft : Draft) (path : List String) (update : Members → Option Members) :
    Reader Draft := do
  match draft.members.change path update with
  | some members => return { draft with members }
  | none => failure

/-- Read a header, and turn to its table. -/
def header (draft : Draft) : Reader Draft := do
  let element ← sees "[["
  word (if element then "[[" else "[")
  let (path, last) ← key
  word (if element then "]]" else "]")
  lineTrailing
  let draft ← draft.change path fun members =>
    if element then members.openElement last else members.openTable last
  return { draft with current := path ++ [last] }

/-- Read a member of the current table. -/
def member (draft : Draft) : Reader Draft := do
  let (path, last, value) ← keyValue (value depthLimit)
  lineTrailing
  draft.change draft.current fun members => members.addDotted path last value

/-- Read one statement, or an empty line. -/
def statement (draft : Draft) : Reader Draft := do
  blanks
  match ← peek with
  | none => return draft
  | some '[' => draft.header
  | some '#' => lineTrailing; return draft
  | some _ => if ← lineEnd? then return draft else draft.member

/-- Read statements to the end of the text, at most a number of them. -/
def statements (draft : Draft) : Nat → Reader Draft
  | 0 => failure
  | bound + 1 => do
      if (← peek).isNone then return draft
      else (← draft.statement).statements bound

end Draft

/-- The members of a document. A byte order mark in front does not count. -/
def parse? (text : String) : Option Members :=
  let text := Text.dropWord ['\uFEFF'] text.toList
  ((({} : Draft).statements (text.length + 1)).run text).map fun (draft, _) => draft.members

end JavaStructure.Toml
