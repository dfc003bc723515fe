/-
# The command

Carries out the requests of a run on real files. The tree of a source is taken
from the file beside it whose name ends in `.rows`.
-/

import JavaStructure.Command.Run
import JavaStructure.Grammar.RowText
import Std.Time.DateTime.Timestamp

namespace JavaStructure.Main

/-- Whether a step could be done. -/
def isDone (step : IO Unit) : IO Bool := do
  try
    step
    return true
  catch _ => return false

/-- The result of a step, if it could be done. -/
def result? (step : IO α) : IO (Option α) := do
  try return some (← step)
  catch _ => return none

/-- The nanoseconds since the epoch. -/
def nanoseconds : IO Int := do
  return (← Std.Time.Timestamp.now).toNanosecondsSinceUnixEpoch.val

/-- Random digits. -/
def randomDigits : IO String := do
  let bytes ← IO.getRandomBytes 8
  return String.join (bytes.toList.map fun byte => Text.hexadecimal byte.toNat)

/-- The text of a file. -/
def readText (path : Path) : IO (Except ReadFault String) := do
  try
    match String.fromUTF8? (← IO.FS.readBinFile path.text) with
    | some text => return .ok text
    | none => return .error .unreadable
  catch
    | .noFileOrDirectory .. => return .error .missing
    | _ => return .error .unreadable

/-- The files that were opened for writing, by handle. -/
abbrev Handles := IO.Ref (Array IO.FS.Handle)

/-- Create a file where there is nothing yet. -/
def createNew (handles : Handles) (path : Path) : IO Creation := do
  try
    let file ← IO.FS.Handle.mk path.text .writeNew
    let opened ← handles.get
    handles.set (opened.push file)
    return .created opened.size
  catch
    | .alreadyExists .. => return .occupied
    | _ => return .refused

/-- Carry out a request. -/
def carryOut (handles : Handles) : (request : Request) → IO request.Answer
  | .readText path => readText path
  | .canonical path => do
      return (← result? (IO.FS.realPath path.text)).map fun found => ⟨found.toString⟩
  | .isPresent path => do return (← result? (IO.FS.realPath path.text)).isSome
  | .isDirectory path => do
      match ← result? (IO.FS.realPath path.text) with
      | some found => found.isDir
      | none => return false
  | .makeDirectories path =>
      if path.text = "" then return true else isDone (IO.FS.createDirAll path.text)
  | .writeText path text => isDone (IO.FS.writeFile path.text text)
  | .createNew path => createNew handles path
  | .writeHandle handle text => do
      match (← handles.get)[handle]? with
      | some file => isDone (do file.putStr text; file.flush)
      | none => return false
  | .createTemporary directory => do
      let path := directory.join (".tmp" ++ (← randomDigits))
      match ← createNew handles path with
      | .created handle => return some (path, handle)
      | _ => return none
  | .rename source target => isDone (IO.FS.rename source.text target.text)
  | .link source target => isDone (IO.FS.hardLink source.text target.text)
  | .remove path => isDone (IO.FS.removeFile path.text)
  | .age path => do
      match ← result? (do (← IO.FS.realPath path.text).metadata) with
      | none => return none
      | some found =>
          let written := found.modified.sec * 1000000000 + found.modified.nsec.toNat
          let age := (← nanoseconds) - written
          return if 0 ≤ age then some age.toNat else none
  | .now => do return ((← nanoseconds) / 1000000000).toNat
  | .token => do return toString (← nanoseconds) ++ " " ++ (← randomDigits)
  | .pause duration => IO.sleep (duration / 1000000).toUInt32

/-- Carry out a program. -/
def carryOutAll (handles : Handles) : Program α → IO α
  | .done value => return value
  | .ask request next => do carryOutAll handles (next (← carryOut handles request))

/-- The tree of a source, from the file beside it. -/
def parseOf? (path : Path) : IO (Option (String × Grammar.Parse)) := do
  match ← readText path, ← readText ⟨path.text ++ ".rows"⟩ with
  | .ok source, .ok rows =>
      return (Grammar.Parse.ofRowText? source rows).map fun parse => (source, parse)
  | _, _ => return none

end JavaStructure.Main

open JavaStructure in
/-- Run the command. -/
def main (words : List String) : IO UInt32 := do
  let sources := Command.sourcesOf words
  let parses := (← sources.mapM Main.parseOf?).filterMap id
  let parser : SourceParser := fun text => (parses.lookup text).getD .unknown
  let handles ← IO.mkRef #[]
  let report ← Main.carryOutAll handles (Command.run parser (← IO.getEnv "HOME") words)
  (← IO.getStdout).putStr report.output
  (← IO.getStderr).putStr report.errors
  return report.exitCode.toUInt32
