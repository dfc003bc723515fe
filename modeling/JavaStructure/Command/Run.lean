/-
# Runs

One run of the command: load the settings, analyse the source, write its
document and whatever else was asked for, and merge its imports into the
dependency cache. The first thing that fails ends the run, but for the cache:
whether it can be updated makes no difference to anything else.
-/

import JavaStructure.Analysis
import JavaStructure.Command.Usage
import JavaStructure.Dependencies.Cache
import JavaStructure.Interchange.Output
import JavaStructure.LineHash
import JavaStructure.Model.Json
import JavaStructure.Settings
import JavaStructure.Syntax.Json

namespace JavaStructure.Command

/-- The context files of a command line that are sources. -/
def contextSources (arguments : Arguments) : List Path :=
  arguments.context.filter fun path => path.extension? = some "java"

/-- All sources that a command line names. -/
def sourcesOf (words : List String) : List Path :=
  match Arguments.ofWords words with
  | .ok arguments => arguments.source :: contextSources arguments
  | .error _ => []

/-- Write the document of a model, and say where it went. -/
def writeModel (model : Model) (arguments : Arguments) (settings : Settings) : Attempt Path := do
  let document ← Interchange.documentFor ⟨model.moduleInfo.path⟩ arguments.sourceRoot
    arguments.output settings.output.extension
  ExceptT.adapt (Failure.noDocument document) (Interchange.writeDocument model document)
  return document

/-- Write the line hashes of a source, if they were asked for. -/
def writeHashes (text : String) (document : Path) (arguments : Arguments) (settings : Settings) :
    Attempt Unit := do
  if arguments.has .hashes then
    Interchange.writeText (Interchange.hashesPath document settings.output.hashesDirectory)
      (LineHash.listing text)

/-- The dependency cache of a run. -/
def cacheFor (arguments : Arguments) (settings : Settings) : Dependencies.Cache where
  path := arguments.output.join settings.cache.fileName
  policy := settings.cache.policy

/-- Merge the imports of a model into the cache. -/
def updateCache (model : Model) (arguments : Arguments) (settings : Settings) :
    Attempt Dependencies.MergeOutcome := do
  let root ← Program.canonicalOrSame arguments.sourceRoot
  (cacheFor arguments settings).mergeNow
    { source := model.moduleInfo.path
      declarations := model.moduleInfo.imports
      root := root.text }

/-- Write a dump, if it was asked for. -/
def writeDump (arguments : Arguments) (dump : Dump) (json : Json) : Attempt Unit := do
  if let some path := arguments.dumpPath? dump then
    Interchange.writeText path json.pretty

/-- Analyse a source and write everything that was asked for. -/
def analyze (parser : SourceParser) (settings : Settings) (arguments : Arguments) :
    Attempt Unit := do
  let analysis ← Analysis.ofPath parser arguments.source (contextSources arguments)
  let model := analysis.model
  let document ← writeModel model arguments settings
  writeHashes analysis.file.text document arguments settings
  discard (ExceptT.lift (updateCache model arguments settings).run)
  writeDump arguments .model model.toJson
  writeDump arguments .tree analysis.unit.toJson

/-- A run with given arguments, for a user with a home or without. -/
def runWith (parser : SourceParser) (home : Option String) (arguments : Arguments) :
    Attempt Unit := do
  let settings ← ExceptT.adapt Failure.noSettings (Settings.load home)
  analyze parser settings arguments

/-- How a run ends, as seen from outside. -/
structure Report where
  exitCode : Nat
  /-- What goes to the output stream. -/
  output : String := ""
  /-- What goes to the error stream. -/
  errors : String := ""
  deriving DecidableEq

namespace Report

/-- The report on a command line that leads to no run. -/
def ofFault : ArgumentFault → Report
  | .helpWanted => { exitCode := 0, output := usage }
  | .versionWanted => { exitCode := 0, output := versionLine }
  | fault => { exitCode := 2, errors := "error: " ++ fault.message ++ "\n\n" ++ usage }

/-- The report on a run. Its end is logged, unless it is to be quiet; a failure
is always told. -/
def ofResult (arguments : Arguments) : Except Failure Unit → Report
  | .ok () =>
      { exitCode := 0, errors := if arguments.has .quiet then "" else "Analysis completed\n" }
  | .error failure => { exitCode := 1, errors := "Error: " ++ failure.message ++ "\n" }

/-- The line that says what went wrong with a run. -/
def errorLine? (report : Report) : Option String :=
  let lines := (Text.lines report.errors.toList).map String.ofList
  lines.find? fun line => (Text.dropWord? "Error: ".toList line.toList).isSome

end Report

/-- A run of the command with the words of its command line. -/
def run (parser : SourceParser) (home : Option String) (words : List String) :
    Program Report := do
  match Arguments.ofWords words with
  | .error fault => return .ofFault fault
  | .ok arguments => return .ofResult arguments (← (runWith parser home arguments).run)

end JavaStructure.Command
