/-
# Stores

A tree of directories and files as a value, and the steps that can be taken on
it. Names point to numbered files, so that a file which is written through a
handle is found under whatever name it has by then.

Directories are made but never renamed or removed, and there are no links to
other names.
-/

import JavaStructure.Files.Program
import JavaStructure.Text.Decimal

namespace JavaStructure

/-- What a file holds: text, or bytes that are not the encoding of any. -/
inductive Content
  | text (value : String)
  | binary (bytes : ByteArray)

namespace Content

/-- Contents are compared as texts or byte by byte. -/
instance : DecidableEq Content
  | .text first, .text second => decidable_of_iff (first = second) (by simp)
  | .binary first, .binary second =>
      decidable_of_iff (first.data = second.data) (by simp [ByteArray.ext_iff])
  | .text _, .binary _ => isFalse (by simp)
  | .binary _, .text _ => isFalse (by simp)

/-- The content that some bytes are. -/
def ofBytes (bytes : ByteArray) : Content :=
  match String.fromUTF8? bytes with
  | some value => .text value
  | none => .binary bytes

/-- The content with a text added at its end. -/
def append : Content → String → Content
  | .text value, more => .text (value ++ more)
  | .binary bytes, more => ofBytes (bytes ++ more.toUTF8)

end Content

/-- A file, whatever its names. -/
structure StoredFile where
  content : Content
  /-- The instant of the last write, in nanoseconds since the epoch. -/
  modified : Int
  deriving DecidableEq

/-- A place in the tree: the names that lead to it, the last one first. The
root is the empty list. -/
abbrev Location := List String

/-- What stands at a place. -/
inductive Entry
  | directory
  | file (number : Nat)
  deriving DecidableEq

/-- Directories and files. -/
structure Store where
  /-- What stands below the root. -/
  entries : List (Location × Entry) := []
  /-- The files by number. -/
  files : List (Nat × StoredFile) := []
  /-- The directory from which paths that are not absolute start. -/
  workingDirectory : Location := []
  /-- Nanoseconds since the epoch. -/
  clock : Int := 0
  /-- A number that no file, token or temporary name was made with yet. -/
  fresh : Nat := 0
  deriving DecidableEq

namespace Store

/-- What stands at a place. -/
def entryAt? (store : Store) : Location → Option Entry
  | [] => some .directory
  | location => store.entries.lookup location

/-- Put something at a place. -/
def put (store : Store) (location : Location) (entry : Entry) : Store :=
  { store with
    entries := (location, entry) :: store.entries.filter fun (other, _) => other ≠ location }

/-- Leave nothing at a place. -/
def drop (store : Store) (location : Location) : Store :=
  { store with entries := store.entries.filter fun (other, _) => other ≠ location }

/-- The file of a number. -/
def file? (store : Store) (number : Nat) : Option StoredFile :=
  store.files.lookup number

/-- Let a file hold something, as of now. -/
def fill (store : Store) (number : Nat) (content : Content) : Store :=
  { store with
    files := (number, { content, modified := store.clock }) ::
      store.files.filter fun (other, _) => other ≠ number }

/-- A new file at a place, and its number. -/
def create (store : Store) (location : Location) (content : Content) : Nat × Store :=
  (store.fresh,
    { (store.put location (.file store.fresh)).fill store.fresh content with
      fresh := store.fresh + 1 })

/-- Where a path leads. -/
inductive Reached
  | directory (location : Location)
  | file (location : Location) (number : Nat)
  /-- Nothing is there, but the directory that it would be in is. A slash at the
  end of the path says that only a directory will do. -/
  | vacant (location : Location) (slash : Bool)
  /-- A directory on the way is missing. -/
  | missing
  /-- The path goes through a file, or is no path at all. -/
  | invalid
  deriving DecidableEq

/-- The most bytes that a name may have. -/
def nameLimit : Nat := 255

/-- The most bytes that a path may have. -/
def pathLimit : Nat := 4095

/-- Follow names from a directory. -/
def walk (store : Store) (location : Location) : List String → Reached
  | [] => .directory location
  | name :: rest =>
      if name = "" ∨ name = "." then store.walk location rest
      else if name = ".." then store.walk location.tail rest
      else if nameLimit < name.utf8ByteSize then .invalid
      else
        match store.entryAt? (name :: location) with
        | some .directory => store.walk (name :: location) rest
        | some (.file number) => if rest = [] then .file (name :: location) number else .invalid
        | none =>
            if ∀ later ∈ rest, later = "" then .vacant (name :: location) (rest ≠ []) else .missing

/-- Follow a path. -/
def reach (store : Store) (path : Path) : Reached :=
  if path.text = "" then .missing
  else if '\x00' ∈ path.text.toList ∨ pathLimit < path.text.utf8ByteSize then .invalid
  else
    store.walk (if path.isAbsolute then [] else store.workingDirectory)
      ((path.text.toList.splitOn '/').map .ofList)

/-- The absolute path of a place. -/
def pathOf (location : Location) : Path :=
  ⟨"/" ++ "/".intercalate location.reverse⟩

/-- The content of the file that a path leads to. -/
def content? (store : Store) (path : Path) : Option Content :=
  match store.reach path with
  | .file _ number => (store.file? number).map (·.content)
  | _ => none

/-- Read a file as text. -/
def readText (store : Store) (path : Path) : Except ReadFault String :=
  match store.reach path with
  | .vacant _ _ => .error .missing
  | .missing => .error .missing
  | .file _ number =>
      match store.file? number with
      | some ⟨.text text, _⟩ => .ok text
      | _ => .error .unreadable
  | _ => .error .unreadable

/-- The absolute path of something that exists. -/
def canonical (store : Store) (path : Path) : Option Path :=
  match store.reach path with
  | .directory location => some (pathOf location)
  | .file location _ => some (pathOf location)
  | _ => none

def isPresent (store : Store) (path : Path) : Bool :=
  (store.canonical path).isSome

def isDirectory (store : Store) (path : Path) : Bool :=
  match store.reach path with
  | .directory _ => true
  | _ => false

/-- Make a directory and those that it lies in, of a path with at most `depth`
parents. What is there already may stay if it is a directory. -/
def makeDirectoriesUpTo (store : Store) (path : Path) : Nat → Bool × Store
  | 0 => (path.text = "", store)
  | depth + 1 =>
      if path.text = "" then (true, store)
      else
        match store.reach path with
        | .vacant location _ => (true, store.put location .directory)
        | .directory _ => (true, store)
        | .missing =>
            match path.parent? with
            | none => (false, store)
            | some parent =>
                match store.makeDirectoriesUpTo parent depth with
                | (false, store) => (false, store)
                | (true, store) =>
                    match store.reach path with
                    | .vacant location _ => (true, store.put location .directory)
                    | .directory _ => (true, store)
                    | _ => (false, store)
        | _ => (false, store)

/-- Make a directory and those that it lies in. A path has fewer parents than
characters. -/
def makeDirectories (store : Store) (path : Path) : Bool × Store :=
  store.makeDirectoriesUpTo path (path.text.length + 1)

/-- Let the file at a path hold something. -/
def write (store : Store) (path : Path) (content : Content) : Bool × Store :=
  match store.reach path with
  | .file _ number => (true, store.fill number content)
  | .vacant location false => (true, (store.create location content).2)
  | _ => (false, store)

/-- Create an empty file where there is nothing. -/
def createNew (store : Store) (path : Path) : Creation × Store :=
  match store.reach path with
  | .file _ _ => (.occupied, store)
  | .directory _ => (.occupied, store)
  | .vacant location false =>
      let (number, store) := store.create location (.text "")
      (.created number, store)
  | _ => (.refused, store)

/-- Write at the end of a file. -/
def writeHandle (store : Store) (number : Nat) (text : String) : Bool × Store :=
  match store.file? number with
  | some file => (true, store.fill number (file.content.append text))
  | none => (false, store)

/-- Create an empty file of a fresh name in a directory. A name that is taken
makes the attempt fail. -/
def createTemporary (store : Store) (directory : Path) : Option (Path × Nat) × Store :=
  let path := directory.join (".tmp" ++ Text.decimal store.fresh)
  match store.createNew path with
  | (.created number, store) => (some (path, number), store)
  | (_, store) => (none, store)

/-- Give a file another name. -/
def rename (store : Store) (source target : Path) : Bool × Store :=
  match store.reach source, store.reach target with
  | .file old number, .file new other =>
      if number = other then (true, store)
      else (true, (store.drop old).put new (.file number))
  | .file old number, .vacant new false => (true, (store.drop old).put new (.file number))
  | _, _ => (false, store)

/-- Give a file a second name. -/
def link (store : Store) (source target : Path) : Bool × Store :=
  match store.reach source, store.reach target with
  | .file _ number, .vacant new false => (true, store.put new (.file number))
  | _, _ => (false, store)

/-- Take a name away from a file. -/
def remove (store : Store) (path : Path) : Bool × Store :=
  match store.reach path with
  | .file location _ => (true, store.drop location)
  | _ => (false, store)

/-- The nanoseconds since a file was written. A file from the future has no
age. -/
def age (store : Store) (path : Path) : Option Nat :=
  match store.reach path with
  | .file _ number =>
      match store.file? number with
      | some file =>
          if file.modified ≤ store.clock then some (store.clock - file.modified).toNat else none
      | none => none
  | _ => none

/-- A text of its own for every request: a holder, an instant and a number. -/
def token (store : Store) : String × Store :=
  ("1 " ++ Text.decimal store.clock.toNat ++ " " ++ Text.decimal store.fresh,
    { store with fresh := store.fresh + 1 })

/-- Let time pass. -/
def pause (store : Store) (nanoseconds : Nat) : Store :=
  { store with clock := store.clock + nanoseconds }

theorem lookup_filter_ne [DecidableEq κ] [BEq κ] [LawfulBEq κ] (entries : List (κ × α))
    (taken key : κ) :
    (entries.filter fun (other, _) => other ≠ taken).lookup key =
      if key = taken then none else entries.lookup key := by
  induction entries with
  | nil => simp
  | cons head rest ih =>
      obtain ⟨place, held⟩ := head
      by_cases hplace : place = taken
      · subst hplace
        by_cases hkey : key = place
        · simpa [hkey] using ih
        · have differ : (key == place) = false := by simpa using hkey
          simpa [List.lookup_cons, differ, hkey] using ih
      · by_cases hkey : key = place
        · subst hkey
          simp [hplace]
        · have differ : (key == place) = false := by simpa using hkey
          simpa [List.lookup_cons, differ, hplace] using ih

theorem lookup_cons_filter_ne [DecidableEq κ] [BEq κ] [LawfulBEq κ] (entries : List (κ × α))
    (taken key : κ) (held : α) :
    ((taken, held) :: entries.filter fun (other, _) => other ≠ taken).lookup key =
      if key = taken then some held else entries.lookup key := by
  by_cases same : key = taken
  · subst same
    simp
  · have differ : (key == taken) = false := by simpa using same
    rw [List.lookup_cons, differ, lookup_filter_ne, if_neg same, if_neg same]

theorem entryAt?_put (store : Store) (location : Location) (entry : Entry) (other : Location) :
    (store.put location entry).entryAt? other =
      if other = [] then some .directory else if other = location then some entry
      else store.entryAt? other := by
  cases other with
  | nil => rfl
  | cons name outer => exact lookup_cons_filter_ne store.entries location (name :: outer) entry

theorem entryAt?_drop (store : Store) (location other : Location) :
    (store.drop location).entryAt? other =
      if other = [] then some .directory else if other = location then none
      else store.entryAt? other := by
  cases other with
  | nil => rfl
  | cons name outer => exact lookup_filter_ne store.entries location (name :: outer)

theorem file?_fill (store : Store) (number : Nat) (content : Content) (other : Nat) :
    (store.fill number content).file? other =
      if other = number then some ⟨content, store.clock⟩ else store.file? other :=
  lookup_cons_filter_ne store.files number other _

end Store

end JavaStructure
