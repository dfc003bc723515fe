/-
# Qualified names

How a type name as written becomes the name of a type. Names are looked up in
this order: classes declared in the units at hand, imported types, the types of
`java.lang`, the first package imported on demand, and the unit's own package.
Primitive types, type variables and dotted names stay as they are.
-/

import JavaStructure.Names.Environment
import JavaStructure.Names.Erasure

namespace JavaStructure.Names

/-- The types that are visible without an import. -/
def languageTypes : List String :=
  ["AutoCloseable", "Boolean", "Byte", "CharSequence", "Character", "Class",
    "ClassCastException", "CloneNotSupportedException", "Cloneable", "Comparable", "Deprecated",
    "Double", "Enum", "Error", "Exception", "Float", "FunctionalInterface",
    "IllegalArgumentException", "IllegalStateException", "IndexOutOfBoundsException", "Integer",
    "InterruptedException", "Iterable", "Long", "Math", "NullPointerException", "Number",
    "Object", "Override", "Process", "Record", "Runnable", "Runtime", "RuntimeException",
    "Short", "StrictMath", "String", "StringBuffer", "StringBuilder", "SuppressWarnings",
    "System", "Thread", "Throwable", "UnsupportedOperationException", "Void"]

/-- The primitive types. -/
def primitives : List String :=
  ["boolean", "byte", "char", "double", "float", "int", "long", "short", "void"]

/-- The root of the class hierarchy. -/
def objectType : String := "java.lang.Object"

/-- An upper-case letter of the ASCII alphabet. -/
def isUpperLetter (c : Char) : Bool :=
  'A' ≤ c && c ≤ 'Z'

/-- A name that is a single upper-case letter is taken for a type variable. -/
def isTypeVariable (name : String) : Bool :=
  match name.toList with
  | [c] => isUpperLetter c
  | _ => false

/-- What is needed to qualify the names in one unit: its environment, and the
classes declared in all units at hand with their qualified names. -/
structure Qualifier where
  names : Environment
  declared : List (String × String)

namespace Qualifier

/-- Whether a simple name surely names a type here. -/
def knows (q : Qualifier) (simple : String) : Bool :=
  (q.declared.lookup simple).isSome || (q.names.imports.lookup simple).isSome ||
    languageTypes.contains simple

/-- A name to which no qualification applies. -/
def isFixed (name : String) : Bool :=
  name.toList.contains '.' || primitives.contains name || isTypeVariable name

/-- The qualified name of an erased type name. -/
def qualifyName (q : Qualifier) (base : String) : String :=
  if isFixed base then base
  else
    match q.declared.lookup base with
    | some qualified => qualified
    | none =>
        match q.names.imports.lookup base with
        | some qualified => qualified
        | none =>
            if languageTypes.contains base then "java.lang." ++ base
            else
              match q.names.wildcards.head? with
              | some package => package ++ "." ++ base
              | none => q.names.inPackage base

/-- The qualified name of the erased form of a type text. -/
def qualify (q : Qualifier) (text : String) : String :=
  q.qualifyName (erase text)

end Qualifier

/-- A character that can start a name inside a type text. Only the ASCII
alphabet counts; other letters stay outside names. -/
def isNameStart (c : Char) : Bool :=
  c.isAlpha || c == '_' || c == '$'

/-- A character that can continue a name inside a type text. -/
def isNamePart (c : Char) : Bool :=
  isNameStart c || c.isDigit

/-- A piece of a type text: a possibly dotted name, or one character that
belongs to no name. -/
inductive Piece where
  | name (text : List Char)
  | mark (c : Char)

/-- The piece for a name whose characters were collected in reverse. -/
def collected : List Char → List Piece
  | [] => []
  | reversed => [.name reversed.reverse]

/-- Cut a type text into names and other characters. A dot belongs to a name if
a name goes on after it. `reversed` holds the name read so far, backwards. -/
def pieces (reversed : List Char) : List Char → List Piece
  | [] => collected reversed
  | c :: rest =>
      let goesOn := match rest with
        | next :: _ => isNameStart next
        | [] => false
      match reversed with
      | [] => if isNameStart c then pieces [c] rest else .mark c :: pieces [] rest
      | _ :: _ =>
          if isNamePart c || (c == '.' && goesOn) then pieces (c :: reversed) rest
          else collected reversed ++ .mark c :: pieces [] rest

/-- The keywords of wildcard bounds. -/
def isBoundKeyword (name : String) : Bool :=
  name == "extends" || name == "super"

namespace Qualifier

/-- A piece with its name qualified. -/
def qualifyPiece (q : Qualifier) : Piece → List Char
  | .mark c => [c]
  | .name text =>
      let name := String.ofList text
      if isFixed name ∨ isBoundKeyword name then text else (q.qualify name).toList

/-- A type text with every name in it qualified, type arguments and array
brackets kept. -/
def qualifyText (q : Qualifier) (text : String) : String :=
  Text.mapChars (fun text => (pieces [] (Text.trim text)).flatMap q.qualifyPiece) text

end Qualifier

end JavaStructure.Names
