/-
# Name environments

What a compilation unit says about names before its classes are looked at: its
package, the types it imports one by one, and the packages it imports whole.
-/

import JavaStructure.Text.Cut
import JavaStructure.Syntax.Node

namespace JavaStructure.Names

open Syntax (Node)

/-- The text of a declaration without its keyword, at the first or a repeated
occurrence, and without blanks around the rest. -/
def afterKeyword (keyword : List Char) (text : List Char) : List Char :=
  Text.trim (Text.dropWords keyword (Text.trim text))

/-- The text of a declaration without its final semicolons. -/
def beforeSemicolon (text : List Char) : List Char :=
  Text.trim (Text.dropEndWhile (fun c => c == ';') text)

/-- The package a unit declares, empty where it declares none. -/
def packageOf (root : Node) : String :=
  match root.children.find? fun child => child.kind = .packageDecl with
  | none => ""
  | some declaration =>
      Text.mapChars (fun text => beforeSemicolon (afterKeyword "package".toList text))
        declaration.text

/-- The name environment of a compilation unit. -/
structure Environment where
  packageName : String
  /-- Simple names of imported types with their qualified names, latest first. -/
  imports : List (String × String) := []
  /-- The packages imported on demand, in source order. -/
  wildcards : List String := []

namespace Environment

/-- The name that a simple name has when it is declared in the package. -/
def inPackage (names : Environment) (simple : String) : String :=
  if names.packageName.isEmpty then simple else names.packageName ++ "." ++ simple

/-- Add an import declaration. An import of members counts for nothing, one on
demand adds its package, and any other adds the type it ends with. -/
def addImport (names : Environment) (text : String) : Environment :=
  let declared := afterKeyword "import".toList text.toList
  if (Text.dropWord? "static ".toList declared).isSome then names
  else
    let path := beforeSemicolon declared
    match Text.dropWord? "*.".toList path.reverse with
    | some front => { names with wildcards := names.wildcards ++ [.ofList front.reverse] }
    | none =>
        { names with
          imports := (.ofList (Text.afterLast '.' path), .ofList path) :: names.imports }

/-- The environment of a unit: its import declarations taken in source order. -/
def ofUnit (root : Node) : Environment :=
  (root.children.filter fun child => child.kind = .importDecl).foldl
    (fun names declaration => names.addImport declaration.text)
    { packageName := packageOf root }

end Environment

end JavaStructure.Names
