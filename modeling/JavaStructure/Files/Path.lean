/-
# Paths

Paths as text, and what can be told from the text alone: the components, the
parent, the last name with its stem and its extension, and the joining of two
paths. Components are separated by slashes. Empty components and single dots
count for nothing, except for a dot in front; two dots are a component of their
own.
-/

import JavaStructure.Text.Cut

namespace JavaStructure

/-- A path, as it is written. -/
structure Path where
  text : String
  deriving DecidableEq

namespace Path

/-- Whether a path starts at the root. -/
def isAbsolute (path : Path) : Bool :=
  path.text.toList.head? == some '/'

/-- The characters in front that are never cut: the slash of an absolute path,
or the dot of a path that starts with a dot on its own. -/
def anchorLength (text : List Char) : Nat :=
  match text with
  | '/' :: _ => 1
  | ['.'] => 1
  | '.' :: '/' :: _ => 1
  | _ => 0

/-- Drop the slashes and the single dots at the end of a text that is given in
reverse. -/
def dropVoid : List Char → List Char
  | '/' :: rest => dropVoid rest
  | '.' :: '/' :: rest => dropVoid rest
  | ['.'] => []
  | reversed => reversed

/-- The last component of a path and the path in front of it. The root has no
last component, and neither has the empty path. -/
def cutLast? (path : Path) : Option (Path × String) :=
  let text := path.text.toList
  let anchor := text.take (anchorLength text)
  let body := dropVoid (text.drop (anchorLength text)).reverse
  let component := body.takeWhile fun c => c != '/'
  let front := dropVoid (body.drop component.length)
  if !body.isEmpty then some (⟨.ofList (anchor ++ front.reverse)⟩, .ofList component.reverse)
  else if anchor = ['.'] then some (⟨""⟩, ".")
  else none

/-- The path in front of the last component. -/
def parent? (path : Path) : Option Path :=
  path.cutLast?.map (·.1)

/-- The parent of a path, unless there is none or it is empty. -/
def properParent? (path : Path) : Option Path :=
  path.parent?.filter fun parent => !parent.text.isEmpty

/-- The last component of a path if it is a name. -/
def fileName? (path : Path) : Option String :=
  (path.cutLast?.map (·.2)).filter fun name => name ≠ "." ∧ name ≠ ".."

/-- A file name cut at its last dot. A dot in front does not count. -/
def cutExtension? (name : String) : Option (String × String) :=
  match Text.cutLast '.' name.toList with
  | none => none
  | some ([], _) => none
  | some (stem, extension) => some (.ofList stem, .ofList extension)

/-- The file name of a path without its extension. -/
def stem? (path : Path) : Option String :=
  path.fileName?.map fun name =>
    match cutExtension? name with
    | some (stem, _) => stem
    | none => name

/-- The extension of the file name of a path. -/
def extension? (path : Path) : Option String :=
  path.fileName?.bind fun name => (cutExtension? name).map (·.2)

/-- Two paths joined by a slash, unless the first ends with one or is empty. An
absolute second path stands for itself. -/
def join (first : Path) (second : String) : Path :=
  if isAbsolute ⟨second⟩ then ⟨second⟩
  else
    match first.text.toList.getLast? with
    | none => ⟨second⟩
    | some '/' => ⟨first.text ++ second⟩
    | some _ => ⟨first.text ++ "/" ++ second⟩

end Path

end JavaStructure
