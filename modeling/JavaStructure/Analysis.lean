/-
# The analysis of a file

Reading one source file together with others that only serve to resolve its
names, and what the analysis makes of it. The parser is a parameter: a function
from the text of a source to its tree.
-/

import JavaStructure.Building.Walk
import JavaStructure.Files.Program
import JavaStructure.Grammar.Lowering
import JavaStructure.Resolution

namespace JavaStructure

open Program (step)

/-- What turns the text of a source into its tree. -/
abbrev SourceParser := String → Grammar.Parse

/-- A source file that was read and parsed. -/
structure SourceFile where
  /-- The path in its absolute form. -/
  path : Path
  text : String
  root : Syntax.Node
  lineCount : Nat
  /-- Whether the parser had to recover from a syntax error. -/
  hasErrors : Bool

namespace SourceFile

/-- The source file of a text. -/
def ofText (parser : SourceParser) (path : Path) (text : String) : SourceFile :=
  let parsed := parser text
  { path
    text
    root := parsed.root.lowerUnit .flat
    lineCount := parsed.root.lineCount
    hasErrors := parsed.hasErrors }

/-- Read a source file. -/
def read (parser : SourceParser) (path : Path) : Attempt SourceFile := do
  let path ← Program.canonicalOrSame path
  match ← step (.readText path) with
  | .ok text => return ofText parser path text
  | .error _ => throw (.cannotReadSource path)

/-- Read those of several source files that can be read. -/
def readReadable (parser : SourceParser) : List Path → Program (List SourceFile)
  | [] => return []
  | path :: rest => do
      let file ← (read parser path).run
      let others ← readReadable parser rest
      match file with
      | .ok file => return file :: others
      | .error _ => return others

end SourceFile

/-- Counts of what was read. -/
structure Metrics where
  parsedFiles : Nat := 0
  contextFiles : Nat := 0
  /-- The number of files with syntax errors. -/
  faultyFiles : Nat := 0
  deriving DecidableEq

/-- A source file, and the files that help to resolve its names. -/
structure Analysis where
  file : SourceFile
  context : List SourceFile := []

namespace Analysis

/-- Read a file and its context. Context files that cannot be read do not
matter. -/
def ofPath (parser : SourceParser) (path : Path) (context : List Path) : Attempt Analysis := do
  let file ← SourceFile.read parser path
  let context ← SourceFile.readReadable parser context
  return { file, context }

/-- Counts of what was read. -/
def metrics (analysis : Analysis) : Metrics :=
  let files := analysis.file :: analysis.context
  { parsedFiles := files.length
    contextFiles := analysis.context.length
    faultyFiles := files.countP (·.hasErrors) }

/-- The syntax tree with its path. -/
def unit (analysis : Analysis) : Syntax.CompilationUnit where
  path := analysis.file.path.text
  root := analysis.file.root

/-- The symbols and scopes of the file. -/
def resolution (analysis : Analysis) : Resolution :=
  Resolution.ofUnit analysis.file.root analysis.file.lineCount (analysis.context.map (·.root))

/-- The model of the file. -/
def model (analysis : Analysis) : Model :=
  Model.ofUnit analysis.resolution.toResolver analysis.file.root analysis.file.path.text

end Analysis

end JavaStructure
