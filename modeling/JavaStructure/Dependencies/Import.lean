/-
# Imported files

What an import declaration says about the file it imports: the directory, given
by all segments of the name but the last, and the name of the file.
-/

import JavaStructure.Text.Cut

namespace JavaStructure.Dependencies

/-- The dotted name inside an import declaration, as a text that may still have
blanks in front of its dots. -/
def importedName (declaration : List Char) : List Char :=
  let text := Text.trim declaration
  let text := match Text.dropWord? "import".toList text with
    | some rest => Text.trimStart rest
    | none => text
  let text := match Text.dropWord? "static ".toList text with
    | some rest => Text.trimStart rest
    | none => text
  Text.trim (Text.dropEndWhile (fun c => c == ';') (Text.trimEnd text))

/-- The directory, with a final slash, and the leaf that an import declaration
names. A name without a package part names none. -/
def importTarget? (declaration : String) : Option (String × String) :=
  let path := Text.replaceChar '.' ['/'] (importedName declaration.toList)
  (Text.cutLast '/' path).map fun (directory, leaf) =>
    (.ofList (directory ++ ['/']), .ofList leaf)

end JavaStructure.Dependencies
