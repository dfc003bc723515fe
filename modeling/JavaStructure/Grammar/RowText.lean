/-
# Grammar trees as text

The form in which a parser leaves the tree of a source file beside it: a line
that says whether the source is sound or has errors, then one line for each row
of the tree, its values separated by tabs. A node that fills no field has a dash
for it.
-/

import JavaStructure.Grammar.Node
import JavaStructure.Text.Cut
import JavaStructure.Text.Decimal

namespace JavaStructure.Grammar

/-- A number that a value stands for. -/
def rowNumber? (value : String) : Option Nat :=
  Text.digitsValue? value.toList

/-- The row that a line holds. The flags are one for a named node, two for an
extra one, and three for one that is both. -/
def Row.ofLine? (line : String) : Option Row :=
  match (line.toList.splitOn '\t').map String.ofList with
  | [depth, kind, field, flags, firstByte, lastByte, firstRow, lastRow] => do
      let depth ← rowNumber? depth
      let flags ← rowNumber? flags
      let firstByte ← rowNumber? firstByte
      let lastByte ← rowNumber? lastByte
      let firstRow ← rowNumber? firstRow
      let lastRow ← rowNumber? lastRow
      return {
        depth
        kind
        field := if field = "-" then none else some field
        named := flags % 2 = 1
        extra := flags / 2 % 2 = 1
        firstByte
        lastByte
        firstRow
        lastRow }
  | _ => none

namespace Parse

/-- The tree of a source that no parser could make anything of. -/
def unknown : Parse where
  root :=
    { kind := "ERROR"
      field := none
      named := true
      extra := false
      text := ""
      firstRow := 0
      lastRow := 0
      children := [] }
  hasErrors := true

/-- The tree that a text holds for a source. -/
def ofRowText? (source text : String) : Option Parse :=
  match (Text.lines text.toList).map String.ofList with
  | [] => none
  | state :: rows => do
      let rows ← rows.mapM Row.ofLine?
      let root ← Node.ofRows? source rows
      return { root, hasErrors := state ≠ "sound" }

end Parse

end JavaStructure.Grammar
