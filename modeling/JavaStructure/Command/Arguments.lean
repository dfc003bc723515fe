/-
# Arguments

What the words of a command line ask for. Every word is first told apart by its
own form: a flag, an option that takes a value, a request for help or for the
version, or a place in the order of paths. A value is checked when the next
argument begins or the command line ends, so that an argument nobody knows is
reported before a bad value in front of it.
-/

import JavaStructure.Files.Path
import JavaStructure.Text.Cut

namespace JavaStructure.Command

/-- A switch that is on or off. -/
inductive Flag
  | hashes
  | debug
  | quiet
  deriving DecidableEq

/-- A dump that can be asked for, with the path it goes to. -/
inductive Dump
  | model
  | tree
  deriving DecidableEq

/-- What a command line asks for. -/
structure Arguments where
  source : Path
  /-- The directory that the source's package hangs in. -/
  sourceRoot : Path
  /-- The directory for the document. -/
  output : Path
  /-- More sources, whose classes help to resolve names. -/
  context : List Path := []
  flags : List Flag := []
  dumps : List (Dump × Path) := []
  deriving DecidableEq

/-- Whether a flag was given. -/
def Arguments.has (arguments : Arguments) (flag : Flag) : Bool :=
  flag ∈ arguments.flags

/-- Where a dump goes, if it was asked for. -/
def Arguments.dumpPath? (arguments : Arguments) (dump : Dump) : Option Path :=
  arguments.dumps.lookup dump

/-- Why a command line does not lead to an analysis. -/
inductive ArgumentFault
  /-- There is no such flag or option. -/
  | unknown
  /-- One of the three paths is missing. -/
  | missing
  /-- A value is empty, or an option has none. -/
  | badValue
  /-- A flag or an option is given twice. -/
  | repeated
  /-- A flag is given a value. -/
  | surplus
  | helpWanted
  | versionWanted
  deriving DecidableEq

/-- A word of the command line by its form. -/
inductive Word
  | flag (flag : Flag)
  /-- An option, with the value that is written to it by an equals sign. -/
  | option (dump : Dump) (attached : Option String)
  /-- What ends the command line at once. -/
  | final (fault : ArgumentFault)
  /-- What ends it at once, whatever is wrong with the argument before. -/
  | refused (fault : ArgumentFault)
  /-- Two dashes alone: whatever follows is a path. -/
  | separator
  | path (text : String)
  deriving DecidableEq

namespace Word

/-- A word that gives no value to a flag, or else a fault. -/
def withoutValue (attached : Option String) (word : Word) : Word :=
  if attached.isSome then .refused .surplus else word

/-- What follows two dashes: a name, and perhaps a value behind an equals sign. -/
def ofLong (text : List Char) : Word :=
  let (name, attached) :=
    match Text.cutFirst '=' text with
    | some (name, value) => (String.ofList name, some (String.ofList value))
    | none => (.ofList text, none)
  match name with
  | "dups" => withoutValue attached (.flag .hashes)
  | "debug" => withoutValue attached (.flag .debug)
  | "quiet" => withoutValue attached (.flag .quiet)
  | "help" => withoutValue attached (.final .helpWanted)
  | "version" => withoutValue attached (.final .versionWanted)
  | "dump-model" => .option .model attached
  | "dump-tree" => .option .tree attached
  | _ => .refused .unknown

/-- What follows one dash: letters, of which the first decides. -/
def ofShort (letter : Char) : Word :=
  match letter with
  | 'h' => .final .helpWanted
  | 'V' => .final .versionWanted
  | _ => .refused .unknown

/-- The form of a word. The flag for hashes may be written with one dash, and a
dash alone is a path. -/
def ofText (text : String) : Word :=
  match text.toList with
  | ['-', '-'] => .separator
  | ['-', 'd', 'u', 'p', 's'] => .flag .hashes
  | '-' :: '-' :: rest => ofLong rest
  | '-' :: letter :: _ => ofShort letter
  | _ => .path text

/-- A path behind the separator. The one-dash flag is not taken for a flag
there, but is written with two dashes all the same. -/
def literal (text : String) : String :=
  if text = "-dups" then "--dups" else text

end Word

/-- An argument whose values are not checked yet. -/
inductive Pending
  /-- An option, and its value if there was one. -/
  | option (dump : Dump) (value : Option String)
  /-- Paths: one of the first three alone, or a run of context paths. -/
  | paths (texts : List String)
  deriving DecidableEq

/-- A command line read in part. -/
structure Reading where
  pending : Option Pending := none
  flags : List Flag := []
  dumps : List (Dump × Path) := []
  /-- The paths that are checked, in order. -/
  paths : List Path := []
  deriving DecidableEq

namespace Reading

/-- The number of paths before the context. -/
def required : Nat := 3

/-- Put down the value of an option. A second value is refused even if it is
empty. -/
def addDump (reading : Reading) (dump : Dump) (value : String) : Except ArgumentFault Reading :=
  if (reading.dumps.lookup dump).isSome then .error .repeated
  else if value = "" then .error .badValue
  else .ok { reading with dumps := reading.dumps ++ [(dump, ⟨value⟩)] }

/-- Check what is pending. -/
def settle (reading : Reading) : Except ArgumentFault Reading :=
  let settled := { reading with pending := none }
  match reading.pending with
  | none => .ok settled
  | some (.option _ none) => .error .badValue
  | some (.option dump (some value)) => settled.addDump dump value
  | some (.paths texts) =>
      if "" ∈ texts then .error .badValue
      else .ok { settled with paths := settled.paths ++ texts.map .mk }

/-- Add a path. Context paths in a row are checked together. -/
def addPath (reading : Reading) (text : String) : Except ArgumentFault Reading :=
  match reading.pending with
  | some (.paths texts) =>
      if required ≤ reading.paths.length then
        .ok { reading with pending := some (.paths (texts ++ [text])) }
      else reading.settle.map fun reading => { reading with pending := some (.paths [text]) }
  | _ => reading.settle.map fun reading => { reading with pending := some (.paths [text]) }

/-- Read a word that stands before the separator and is no separator. -/
def addWord (reading : Reading) (word : Word) : Except ArgumentFault Reading :=
  match word with
  | .refused fault => .error fault
  | .final fault => reading.settle.bind fun _ => .error fault
  | .flag flag =>
      reading.settle.bind fun reading =>
        if flag ∈ reading.flags then .error .repeated
        else .ok { reading with flags := reading.flags ++ [flag] }
  | .option dump (some value) => reading.settle.bind fun reading => reading.addDump dump value
  | .option dump none =>
      reading.settle.map fun reading => { reading with pending := some (.option dump none) }
  | .separator => .ok reading
  | .path text =>
      match reading.pending with
      | some (.option dump none) => .ok { reading with pending := some (.option dump (some text)) }
      | _ => reading.addPath text

/-- Read the words behind the separator. -/
def addLiterals (reading : Reading) : List String → Except ArgumentFault Reading
  | [] => .ok reading
  | text :: rest =>
      (reading.addPath (Word.literal text)).bind fun reading => reading.addLiterals rest

/-- Read words. -/
def addAll (reading : Reading) : List String → Except ArgumentFault Reading
  | [] => .ok reading
  | text :: rest =>
      match Word.ofText text with
      | .separator => reading.addLiterals rest
      | word => (reading.addWord word).bind fun reading => reading.addAll rest

/-- What a command line that is read to its end asks for. -/
def finish (reading : Reading) : Except ArgumentFault Arguments :=
  reading.settle.bind fun reading =>
    match reading.paths with
    | source :: sourceRoot :: output :: context =>
        .ok { source, sourceRoot, output, context, flags := reading.flags, dumps := reading.dumps }
    | _ => .error .missing

end Reading

/-- What the words of a command line ask for. -/
def Arguments.ofWords (words : List String) : Except ArgumentFault Arguments :=
  (({} : Reading).addAll words).bind Reading.finish

end JavaStructure.Command
