/-
# Failures

Why a run ends early: one cause for each thing that may go wrong with the files
of a run, and the message that it gives. Two of the causes carry the one that
they were brought about by; their message speaks of the outer one.
-/

import JavaStructure.Files.Path

namespace JavaStructure

/-- The cause of a failure. -/
inductive Failure
  | cannotCreate (path : Path)
  | cannotWrite (path : Path)
  | cannotRead (path : Path)
  | cannotReadSource (path : Path)
  | cannotCreateLock (path : Path)
  | cannotWriteLock (path : Path)
  | cannotCreateTemporary (directory : Path)
  | cannotReplace (path : Path)
  | malformedSettings
  /-- The settings could not be had. -/
  | noSettings (cause : Failure)
  /-- The document could not be written. -/
  | noDocument (document : Path) (cause : Failure)
  deriving DecidableEq

/-- The message of a failure. -/
def Failure.message : Failure → String
  | .cannotCreate path => "failed to create " ++ path.text
  | .cannotWrite path => "failed to write " ++ path.text
  | .cannotRead path => "failed to read " ++ path.text
  | .cannotReadSource path => "Failed to read file: " ++ path.text
  | .cannotCreateLock path => "failed to create lock " ++ path.text
  | .cannotWriteLock path => "failed to write lock " ++ path.text
  | .cannotCreateTemporary directory => "failed to create temp file in " ++ directory.text
  | .cannotReplace path => "failed to replace " ++ path.text
  | .malformedSettings => "failed to parse config"
  | .noSettings _ => "failed to load configuration"
  | .noDocument document _ => "Unable to write " ++ document.text

end JavaStructure
