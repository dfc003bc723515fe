/-
# Settings

What a user may set once for all runs, in a TOML file below the home directory.
Whatever is not set has its usual value, and members with other names do not
matter.
-/

import JavaStructure.Dependencies.Lock
import JavaStructure.Toml.Document

namespace JavaStructure

open Program (step)

/-- What can be set about the dependency cache. -/
structure CacheSettings where
  /-- The name of the cache file in the output directory. -/
  fileName : String := "incdeps.txt"
  policy : Dependencies.RetryPolicy := {}
  deriving DecidableEq

/-- What can be set about the files that are written. -/
structure OutputSettings where
  /-- The extension of documents. -/
  extension : String := "xmi"
  /-- The directory for line hashes, beside the one for documents. -/
  hashesDirectory : String := "dups"
  deriving DecidableEq

/-- The settings of a user. -/
structure Settings where
  cache : CacheSettings := {}
  output : OutputSettings := {}
  deriving DecidableEq

namespace Settings

/-- The members of a section with known names. A section may also be an array,
which gives its values in the order of the names, and a date stands for a
section without members. -/
def sectionMembers? (names : List String) : Toml.Value → Option Toml.Members
  | .table _ members => some members
  | .array values => some (names.zip values)
  | .dateTime _ => some []
  | _ => none

/-- A text, or the usual one where it is not set. -/
def text? (members : Toml.Members) (name usual : String) : Option String :=
  match members.lookup name with
  | none => some usual
  | some (.text value) => some value
  | some _ => none

/-- A number below a limit, or the usual one where it is not set. -/
def number? (limit : Nat) (members : Toml.Members) (name : String) (usual : Nat) : Option Nat :=
  match members.lookup name with
  | none => some usual
  | some (.integer (.ofNat value)) => if value < limit then some value else none
  | some _ => none

/-- The settings of a section about the cache. -/
def cache? (value : Toml.Value) : Option CacheSettings := do
  let names := ["file_name", "retry_attempts", "retry_delay_ms", "stale_lock_secs"]
  let members ← sectionMembers? names value
  let usual : CacheSettings := {}
  let fileName ← text? members "file_name" usual.fileName
  let attempts ← number? (Nat.pow 2 32) members "retry_attempts" usual.policy.attempts
  let delay ← number? (Nat.pow 2 64) members "retry_delay_ms" usual.policy.delay
  let staleAfter ← number? (Nat.pow 2 64) members "stale_lock_secs" usual.policy.staleAfter
  return { fileName, policy := { attempts, delay, staleAfter } }

/-- The settings of a section about the output. -/
def output? (value : Toml.Value) : Option OutputSettings := do
  let members ← sectionMembers? ["extension", "dups_dir"] value
  let usual : OutputSettings := {}
  let extension ← text? members "extension" usual.extension
  let hashesDirectory ← text? members "dups_dir" usual.hashesDirectory
  return { extension, hashesDirectory }

/-- The settings in a text, or nothing if it is malformed. -/
def parse? (text : String) : Option Settings := do
  let members ← Toml.parse? text
  let cache ← match members.lookup "cache" with
    | some value => cache? value
    | none => some {}
  let output ← match members.lookup "output" with
    | some value => output? value
    | none => some {}
  return { cache, output }

/-- The directory of the settings of a user, who may have no home. -/
def directory (home : Option String) : Path :=
  (Path.join ⟨home.getD "."⟩ ".config").join "javamodel"

/-- The file of the settings of a user. -/
def file (home : Option String) : Path :=
  (directory home).join "config.toml"

/-- Load the settings of a user. Without a file, all have their usual values. -/
def load (home : Option String) : Attempt Settings := do
  let path := file home
  if ← step (.isPresent path) then
    match ← step (.readText path) with
    | .error _ => throw (.cannotRead path)
    | .ok text =>
        match parse? text with
        | some settings => return settings
        | none => throw .malformedSettings
  else return {}

end Settings

end JavaStructure
