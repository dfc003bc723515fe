/-
# The dependency cache

A file with one line for each source, shared by all runs that write to one
directory. An update takes the lock, reads all lines, puts the new line at the
end in place of the old one, and puts a new file in the place of the old one.
Lines of other sources stay as they are, well-formed or not.
-/

import JavaStructure.Dependencies.Lock
import JavaStructure.Dependencies.Record

namespace JavaStructure.Dependencies

open Program (step)

/-- How a merge ended. -/
inductive MergeOutcome
  /-- The record is in the cache. -/
  | updated
  /-- The source imports nothing, so nothing was written. -/
  | unchanged
  /-- The lock stayed held. -/
  | skipped
  deriving DecidableEq

/-- A cache file, and how to get hold of it. -/
structure Cache where
  path : Path
  policy : RetryPolicy := {}
  deriving DecidableEq

/-- What a source imports. -/
structure Imports where
  source : String
  declarations : List String
  /-- The directory below which imported directories are looked for. -/
  root : String
  deriving DecidableEq

namespace Imports

/-- The paths that the imported directories would have below the root. -/
def candidates (imports : Imports) : List String :=
  (imports.declarations.filterMap importTarget?).map fun (directory, _) =>
    Record.withSeparator imports.root ++ directory

/-- Those of some paths that are directories. -/
def directoriesAmong : List String → Program (List String)
  | [] => return []
  | path :: rest => do
      let found ← step (.isDirectory ⟨path⟩)
      let others ← directoriesAmong rest
      return if found then path :: others else others

/-- The record of a source, at a time. -/
def record? (imports : Imports) (now : Nat) : Program (Option Record) := do
  let present ← directoriesAmong imports.candidates
  return Record.ofImports? (present.contains ·) imports.source imports.declarations imports.root now

end Imports

namespace Cache

/-- The lines of a cache after an update. Of the earlier lines, the first one
about the same source goes. -/
def replaceLine (lines : List String) (record : Record) : List String :=
  lines.eraseP (fun line => Record.key? line = some record.path) ++ [record.line]

/-- The lines of a cache. A cache that is not there has none. -/
def readLines (cache : Cache) : Attempt (List String) := do
  match ← step (.readText cache.path) with
  | .ok text => return (Text.lines text.toList).map .ofList
  | .error .missing => return []
  | .error .unreadable => throw (.cannotRead cache.path)

/-- The well-formed records of a cache. -/
def load (cache : Cache) : Attempt (List Record) := do
  return (← cache.readLines).filterMap Record.parse?

/-- Write lines into a temporary file. -/
def writeLines (temporary : Path) (handle : Nat) : List String → Attempt Unit
  | [] => return
  | line :: rest => do
      Attempt.must (.cannotWrite temporary) (step (.writeHandle handle (line ++ "\n")))
      writeLines temporary handle rest

/-- Write lines into a temporary file, and put it in the place of the cache. -/
def fillTemporary (cache : Cache) (temporary : Path) (handle : Nat) (lines : List String) :
    Attempt Unit := do
  writeLines temporary handle lines
  Attempt.must (.cannotReplace cache.path) (step (.rename temporary cache.path))

/-- Replace the cache by other lines. A temporary file that could not take its
place is removed. -/
def replace (cache : Cache) (lines : List String) : Attempt Unit := do
  let directory := cache.path.properParent?.getD ⟨"."⟩
  match ← step (.createTemporary directory) with
  | none => throw (.cannotCreateTemporary directory)
  | some (temporary, handle) =>
      try cache.fillTemporary temporary handle lines
      catch failure =>
        discard (step (.remove temporary))
        throw failure

/-- Merge the imports of a source, while the lock is held. -/
def mergeHeld (cache : Cache) (imports : Imports) (now : Nat) : Attempt MergeOutcome := do
  let lines ← cache.readLines
  match ← imports.record? now with
  | none => return .unchanged
  | some record =>
      cache.replace (replaceLine lines record)
      return .updated

/-- Merge the imports of a source at a time. The lock is given back however the
merge ends. -/
def merge (cache : Cache) (imports : Imports) (now : Nat) : Attempt MergeOutcome := do
  if let some parent := cache.path.properParent? then
    Attempt.must (.cannotCreate parent) (step (.makeDirectories parent))
  match ← Lock.acquire cache.path cache.policy with
  | none => return .skipped
  | some lock =>
      let outcome ← ExceptT.lift (cache.mergeHeld imports now).run
      lock.release
      liftExcept outcome

/-- Merge the imports of a source at the present time. -/
def mergeNow (cache : Cache) (imports : Imports) : Attempt MergeOutcome := do
  cache.merge imports (← step .now)

end Cache

end JavaStructure.Dependencies
