/-
# Writing output

Documents and other texts are written as whole files, into directories that are
made where they are missing.
-/

import JavaStructure.Files.Program
import JavaStructure.Interchange.Document
import JavaStructure.Interchange.FileName

namespace JavaStructure.Interchange

open Program (step)

/-- Write the document of a model. -/
def writeDocument (model : Model) (path : Path) : Attempt Unit := do
  if let some parent := path.parent? then
    Attempt.must (.cannotCreate parent) (step (.makeDirectories parent))
  Attempt.must (.cannotCreate path) (step (.writeText path (renderModel model)))

/-- Write a text that goes with a document. -/
def writeText (path : Path) (text : String) : Attempt Unit := do
  if let some parent := path.properParent? then
    Attempt.must (.cannotCreate parent) (step (.makeDirectories parent))
  Attempt.must (.cannotWrite path) (step (.writeText path text))

/-- The path of the document of a source, all paths taken in their absolute form
where they have one. -/
def documentFor (source root output : Path) (extension : String) : Program Path := do
  let output ← Program.canonicalOrSame output
  let source ← Program.canonicalOrSame source
  let root ← Program.canonicalOrSame root
  return documentPath source root output extension

end JavaStructure.Interchange
