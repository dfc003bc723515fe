/-
# Dependency records

The line that a cache holds for one source file: its path, the time of its
analysis twice, and the files it imports.
-/

import JavaStructure.Dependencies.Import
import JavaStructure.Text.Decimal

namespace JavaStructure.Dependencies

/-- An imported file: its directory, with a final slash, and its name. -/
structure ImportEntry where
  directory : String
  file : String
  deriving DecidableEq

/-- What the cache knows about one source file. -/
structure Record where
  path : String
  /-- Seconds since the epoch. -/
  parseTime : Nat
  /-- Written equal to the time of parsing. -/
  checkTime : Nat
  imports : List ImportEntry
  deriving DecidableEq

namespace Record

/-- The entry of an import as it is written. -/
def entryText (entry : ImportEntry) : String :=
  entry.directory ++ ";" ++ entry.file ++ ";"

/-- The line of a record. -/
def line (record : Record) : String :=
  record.path ++ "|" ++ Text.decimal record.parseTime ++ ";" ++ Text.decimal record.checkTime ++
    ";" ++ String.join (record.imports.map entryText)

/-- Values taken in pairs. A value that is left over is dropped. -/
def pairs : List (List Char) → List ImportEntry
  | directory :: file :: rest => ⟨.ofList directory, .ofList file⟩ :: pairs rest
  | _ => []

/-- The record that a line holds. After the path come both times and complete
pairs of directory and file; empty values count for nothing. -/
def parse? (line : String) : Option Record :=
  match Text.cutFirst '|' line.toList with
  | none => none
  | some (path, rest) =>
      let values := (rest.splitOn ';').filter fun value => !value.isEmpty
      match values with
      | parseTime :: checkTime :: imports =>
          if imports.length % 2 = 0 then
            match Text.word64? (Text.trim parseTime), Text.word64? (Text.trim checkTime) with
            | some parseTime, some checkTime =>
                some { path := .ofList path, parseTime, checkTime, imports := pairs imports }
            | _, _ => none
          else none
      | _ => none

/-- The path that a line of the cache is about. -/
def key? (line : String) : Option String :=
  (Text.cutFirst '|' line.toList).map fun (path, _) => .ofList path

/-- A root directory with a separator at its end. -/
def withSeparator (root : String) : String :=
  match root.toList.getLast? with
  | some '/' => root
  | some '\\' => root
  | _ => root ++ "/"

/-- The entry for an import target: its directory below the root if there is
such a directory, else the directory as imported. -/
def entryFor (isDirectory : String → Bool) (root : String) (target : String × String) :
    ImportEntry :=
  let (directory, leaf) := target
  let below := withSeparator root ++ directory
  { directory := if isDirectory below then below else directory
    file := leaf ++ ".java" }

/-- The record of a source file, or nothing if it has no imports at all. -/
def ofImports? (isDirectory : String → Bool) (path : String) (imports : List String)
    (root : String) (now : Nat) : Option Record :=
  if imports.isEmpty then none
  else
    some
      { path
        parseTime := now
        checkTime := now
        imports := (imports.filterMap importTarget?).map (entryFor isDirectory root) }

end Record

end JavaStructure.Dependencies
