/-
# TOML values

Values, and the tables of a document while it is read. A table remembers how it
came to be, because that decides what may still be added to it: a table with a
header of its own is closed to dotted keys from outside, a table that was only
passed on the way to another may still get its header, and an inline table is
finished at once.
-/

namespace JavaStructure.Toml

/-- How a table came to be. -/
inductive Origin
  /-- It was written between braces. -/
  | inlined
  /-- It has a header. -/
  | header
  /-- It was passed on the way of a header. -/
  | passed
  /-- It was passed on the way of a dotted key. -/
  | dotted
  deriving DecidableEq

/-- Whether a table only exists because it was passed on the way to another. -/
def Origin.isImplicit : Origin → Bool
  | .passed | .dotted => true
  | .inlined | .header => false

/-- A value. Numbers with a fraction or an exponent, and dates and times, are
kept as they are written. -/
inductive Value
  | text (value : String)
  | boolean (value : Bool)
  | integer (value : Int)
  | float (literal : List Char)
  | dateTime (literal : List Char)
  | array (values : List Value)
  | table (origin : Origin) (members : List (String × Value))
  /-- An array whose tables have headers of their own. -/
  | tables (elements : List (List (String × Value)))

/-- The members of a table, in the order in which they were written. -/
abbrev Members := List (String × Value)

namespace Members

/-- Change the value of a key that is there. -/
def set (members : Members) (key : String) (value : Value) : Members :=
  members.map fun member => if member.1 = key then (key, value) else member

/-- Add a member under a key that is not taken. -/
def addNew (members : Members) (key : String) (value : Value) : Option Members :=
  if (members.lookup key).isSome then none else some (members ++ [(key, value)])

/-- Add a member under a dotted key: the tables to pass, then the last part.
Tables are made where they are missing. A table with a header, or between
braces, is not passed, and the last one has to belong to dotted keys. -/
def addDotted (members : Members) (path : List String) (key : String) (value : Value) :
    Option Members :=
  match path with
  | [] => members.addNew key value
  | part :: rest =>
      match members.lookup part with
      | none =>
          (addDotted [] rest key value).bind fun inner => members.addNew part (.table .dotted inner)
      | some (.table origin inner) =>
          if origin.isImplicit ∧ (rest = [] → origin = .dotted) then
            (addDotted inner rest key value).map fun inner => members.set part (.table origin inner)
          else none
      | some (.tables elements) =>
          match elements.reverse with
          | [] => none
          | last :: earlier =>
              if rest = [] then none
              else
                (addDotted last rest key value).map fun last =>
                  members.set part (.tables (last :: earlier).reverse)
      | some _ => none

/-- Change the members of the table that the parts of a header lead to. Tables
are made where they are missing; of an array of tables the last one is meant. -/
def change (members : Members) (path : List String) (update : Members → Option Members) :
    Option Members :=
  match path with
  | [] => update members
  | part :: rest =>
      match members.lookup part with
      | none => (change [] rest update).bind fun inner => members.addNew part (.table .passed inner)
      | some (.table .inlined _) => none
      | some (.table origin inner) =>
          (change inner rest update).map fun inner => members.set part (.table origin inner)
      | some (.tables elements) =>
          match elements.reverse with
          | [] => none
          | last :: earlier =>
              (change last rest update).map fun last =>
                members.set part (.tables (last :: earlier).reverse)
      | some _ => none

/-- Give a table its header. It may have been passed on the way of another
header before. -/
def openTable (members : Members) (key : String) : Option Members :=
  match members.lookup key with
  | none => members.addNew key (.table .header [])
  | some (.table .passed inner) => some (members.set key (.table .header inner))
  | some _ => none

/-- Add a table to an array of tables. -/
def openElement (members : Members) (key : String) : Option Members :=
  match members.lookup key with
  | none => members.addNew key (.tables [[]])
  | some (.tables elements) => some (members.set key (.tables (elements ++ [[]])))
  | some _ => none

end Members

end JavaStructure.Toml
