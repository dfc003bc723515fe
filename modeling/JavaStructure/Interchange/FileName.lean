/-
# Output file names

Where the document and the line hashes of a source file go. The path of the
source below its root becomes one file name: dots are written `_d` and
separators `_s`. Paths are given in the form in which they are to be compared.
-/

import JavaStructure.Files.Path

namespace JavaStructure.Interchange

/-- A text without its first `count` bytes, unless that would cut a character. -/
def dropBytes? : Nat → List Char → Option (List Char)
  | 0, text => some text
  | _ + 1, [] => none
  | count + 1, c :: rest =>
      if c.utf8Size ≤ count + 1 then dropBytes? (count + 1 - c.utf8Size) rest else none

/-- The number of bytes of a text. -/
def byteLength (text : List Char) : Nat :=
  text.foldr (fun c length => c.utf8Size + length) 0

/-- A text with the path separators written out. -/
def flattenSeparators (text : List Char) : List Char :=
  text.flatMap fun c => if c = '/' ∨ c = '\\' then ['_', 's'] else [c]

/-- The name of the document of a source. What follows the root and one
separator is flattened and gets the extension; a source that is no longer than
the root keeps its dots and gets none. -/
def documentName (source root extension : List Char) : List Char :=
  let name :=
    if byteLength source > byteLength root then
      let relative := (dropBytes? (byteLength root + 1) source).getD source
      Text.replaceChar '.' ['_', 'd'] relative ++ '.' :: extension
    else source
  flattenSeparators name

/-- The path of the document of a source below a root. -/
def documentPath (source root output : Path) (extension : String) : Path :=
  output.join
    (.ofList (documentName source.text.toList root.text.toList extension.toList))

/-- The path of the line hashes that go with a document: a directory beside the
one of the document, and the document's name with its own extension. -/
def hashesPath (document : Path) (directory : String) : Path :=
  let output := document.parent?.getD ⟨"."⟩
  let base := output.parent?.getD output
  (base.join directory).join ((document.stem?.getD "") ++ ".hsh")

end JavaStructure.Interchange
