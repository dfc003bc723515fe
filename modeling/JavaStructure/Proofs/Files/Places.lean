/-
# Places of files

Where a path leads is found by walking through directories. As long as no directory
is made, a path has a fixed place, at which a file of its name is or would be. The
files of a store are then seen as two maps: from paths to the numbers of files, and
from numbers to contents. This module supplies that view; what the steps of a program
do to it is the subject of the next one.
-/

import JavaStructure.Files.Run

namespace JavaStructure

/-- The names of a path, from the first to the last. -/
def Path.names (path : Path) : List String :=
  (path.text.toList.splitOn '/').map .ofList

/-- The last name of a path, as the characters behind its last slash. -/
def Path.lastName? (path : Path) : Option (List Char) :=
  (path.text.toList.splitOn '/').getLast?

/-- What is written behind a text, and holds no mark, becomes part of its last piece. -/
theorem splitOn_append {mark : Char} {back : List Char} (unmarked : mark ∉ back)
    (front : List Char) :
    ∃ pieces last, front.splitOn mark = pieces ++ [last] ∧
      (front ++ back).splitOn mark = pieces ++ [last ++ back] := by
  induction front with
  | nil => exact ⟨[], [], by simp, by simpa using List.splitOn_eq_singleton unmarked⟩
  | cons c rest ih =>
      obtain ⟨pieces, last, cut, longCut⟩ := ih
      rw [List.cons_append, List.splitOn_cons_eq_if_modifyHead,
        List.splitOn_cons_eq_if_modifyHead, cut, longCut]
      split
      · exact ⟨[] :: pieces, last, rfl, rfl⟩
      · cases pieces with
        | nil => exact ⟨[], c :: last, rfl, rfl⟩
        | cons piece more => exact ⟨(c :: piece) :: more, last, rfl, rfl⟩

/-- What is written behind a path, and holds no slash, becomes part of its last name. -/
theorem Path.lastName?_append (path : Path) {back : String} (plain : '/' ∉ back.toList) :
    Path.lastName? ⟨path.text ++ back⟩ = path.lastName?.map (· ++ back.toList) := by
  obtain ⟨pieces, last, cut, longCut⟩ := splitOn_append plain path.text.toList
  simp [lastName?, String.toList_append, cut, longCut]

namespace Store

namespace Reached

/-- The place of the file that a walk ends at, or of one that could be made there. -/
def place? : Reached → Option Location
  | .file location _ => some location
  | .vacant location false => some location
  | _ => none

/-- The directory that a walk ends at. -/
def directory? : Reached → Option Location
  | .directory location => some location
  | _ => none

end Reached

variable {store before middle after : Store} {path other : Path} {location place : Location}
variable {names : List String} {number : Nat}

/-- How a walk can end: with what stands at the place that it ends at. The place of
a file is called by the last of the names. -/
inductive Ends (store : Store) : List String → Reached → Prop
  | directory (location : Location) (names : List String) : Ends store names (.directory location)
  | file {names : List String} {name : String} {outer : Location} {number : Nat}
      (last : names.getLast? = some name)
      (stands : store.entryAt? (name :: outer) = some (.file number)) :
      Ends store names (.file (name :: outer) number)
  | vacant {names : List String} {name : String} {outer : Location}
      (last : names.getLast? = some name) (absent : store.entryAt? (name :: outer) = none) :
      Ends store names (.vacant (name :: outer) false)
  | slashed {names : List String} {name : String} {outer : Location}
      (absent : store.entryAt? (name :: outer) = none) :
      Ends store names (.vacant (name :: outer) true)
  | missing (names : List String) : Ends store names .missing
  | invalid (names : List String) : Ends store names .invalid

/-- A name in front makes no difference to the end. -/
theorem Ends.cons {reached : Reached} (ends : Ends store names reached) (name : String) :
    Ends store (name :: names) reached := by
  cases ends with
  | directory location => exact .directory location _
  | file last stands => exact .file (by simp [List.getLast?_cons, last]) stands
  | vacant last absent => exact .vacant (by simp [List.getLast?_cons, last]) absent
  | slashed absent => exact .slashed absent
  | missing => exact .missing _
  | invalid => exact .invalid _

theorem walk_ends (store : Store) (location : Location) (names : List String) :
    Ends store names (store.walk location names) := by
  induction names generalizing location with
  | nil => exact .directory location []
  | cons name rest ih =>
      rw [walk]
      split
      · exact (ih location).cons name
      · split
        · exact (ih location.tail).cons name
        · split
          · exact .invalid _
          · split
            · exact (ih (name :: location)).cons name
            · next number stands =>
                split
                · next last =>
                    subst last
                    exact .file rfl stands
                · exact .invalid _
            · next absent =>
                split
                · by_cases last : rest = []
                  · subst last
                    simpa using Ends.vacant rfl absent
                  · simpa [last] using Ends.slashed absent
                · exact .missing _

theorem reach_ends (store : Store) (path : Path) : Ends store path.names (store.reach path) := by
  rw [reach]
  split
  · exact .missing _
  · split
    · exact .invalid _
    · exact walk_ends store _ _

/-- Two stores have the same directories. -/
structure SameDirectories (before after : Store) : Prop where
  workingDirectory : after.workingDirectory = before.workingDirectory
  directory_iff : ∀ location, after.entryAt? location = some .directory ↔
    before.entryAt? location = some .directory

/-- A name that may be walked to: it is neither passed over nor too long. -/
def IsProper (name : String) : Prop :=
  ¬(name = "" ∨ name = ".") ∧ name ≠ ".." ∧ ¬nameLimit < name.utf8ByteSize

/-- A name that is no directory ends the walk. -/
theorem walk_of_no_directory {name : String} (rest : List String) (proper : IsProper name)
    (stop : store.entryAt? (name :: location) ≠ some .directory) :
    (store.walk location (name :: rest)).place? =
        (if rest = [] then some (name :: location) else none) ∧
      (store.walk location (name :: rest)).directory? = none := by
  obtain ⟨kept, inner, short⟩ := proper
  rw [walk, if_neg kept, if_neg inner, if_neg short]
  split
  · contradiction
  · split <;> simp_all [Reached.place?, Reached.directory?]
  · by_cases last : rest = []
    · subst last
      simp [Reached.place?, Reached.directory?]
    · split <;> simp [last, Reached.place?, Reached.directory?]

/-- Entering a directory is the same in all stores that have it. -/
theorem walk_of_directory {name : String} {rest : List String} (proper : IsProper name)
    (enter : store.entryAt? (name :: location) = some .directory) :
    store.walk location (name :: rest) = store.walk (name :: location) rest := by
  obtain ⟨kept, inner, short⟩ := proper
  rw [walk, if_neg kept, if_neg inner, if_neg short, enter]

/-- A walk along names starts with one that is passed over, leads outward, is too
long, or is proper. -/
theorem walk_cases (name : String) :
    (name = "" ∨ name = ".") ∨ name = ".." ∨
      (¬(name = "" ∨ name = ".") ∧ name ≠ ".." ∧ nameLimit < name.utf8ByteSize) ∨
      IsProper name := by
  by_cases kept : name = "" ∨ name = "."
  · exact .inl kept
  · by_cases inner : name = ".."
    · exact .inr (.inl inner)
    · by_cases long : nameLimit < name.utf8ByteSize
      · exact .inr (.inr (.inl ⟨kept, inner, long⟩))
      · exact .inr (.inr (.inr ⟨kept, inner, long⟩))

namespace SameDirectories

theorem refl (store : Store) : SameDirectories store store :=
  ⟨rfl, fun _ => Iff.rfl⟩

theorem trans (first : SameDirectories before middle) (second : SameDirectories middle after) :
    SameDirectories before after :=
  ⟨second.workingDirectory.trans first.workingDirectory,
    fun location => (second.directory_iff location).trans (first.directory_iff location)⟩

theorem walk (same : SameDirectories before after) (location : Location) (names : List String) :
    (after.walk location names).place? = (before.walk location names).place? ∧
      (after.walk location names).directory? = (before.walk location names).directory? := by
  induction names generalizing location with
  | nil => exact ⟨rfl, rfl⟩
  | cons name rest ih =>
      rcases walk_cases name with skipped | outward | ⟨kept, inner, long⟩ | proper
      · simpa only [Store.walk, if_pos skipped] using ih location
      · subst outward
        simpa [Store.walk] using ih location.tail
      · simp [Store.walk, kept, inner, long]
      · by_cases entered : before.entryAt? (name :: location) = some .directory
        · rw [walk_of_directory proper entered,
            walk_of_directory proper ((same.directory_iff _).mpr entered)]
          exact ih (name :: location)
        · have stopped := walk_of_no_directory rest proper entered
          have stoppedToo := walk_of_no_directory rest proper
            (fun stands => entered ((same.directory_iff _).mp stands))
          exact ⟨stoppedToo.1.trans stopped.1.symm, stoppedToo.2.trans stopped.2.symm⟩

theorem reach (same : SameDirectories before after) (path : Path) :
    (after.reach path).place? = (before.reach path).place? ∧
      (after.reach path).directory? = (before.reach path).directory? := by
  rw [Store.reach, Store.reach, same.workingDirectory]
  split
  · exact ⟨rfl, rfl⟩
  · split
    · exact ⟨rfl, rfl⟩
    · exact same.walk _ _

end SameDirectories

/-- The place of a path, if a file can be there. -/
def place? (store : Store) (path : Path) : Option Location :=
  (store.reach path).place?

/-- The number of the file at a place. -/
def numberAt? (store : Store) (location : Location) : Option Nat :=
  match store.entryAt? location with
  | some (.file number) => some number
  | _ => none

/-- The number of the file that a path leads to. -/
def number? (store : Store) (path : Path) : Option Nat :=
  (store.place? path).bind store.numberAt?

/-- What the file of a number holds. -/
def holds? (store : Store) (number : Nat) : Option Content :=
  (store.file? number).map (·.content)

/-- A file is at the place of a path, or there is nothing and one could be made. -/
theorem reach_of_place (found : store.place? path = some place) :
    (∃ name, path.names.getLast? = some name ∧ place.head? = some name) ∧
      ((∃ number, store.reach path = .file place number ∧
          store.entryAt? place = some (.file number)) ∨
        (store.reach path = .vacant place false ∧ store.entryAt? place = none)) := by
  have ends := reach_ends store path
  revert found ends
  rw [place?]
  generalize store.reach path = reached
  intro found ends
  cases ends with
  | file last stands =>
      obtain rfl := Option.some.inj found
      exact ⟨⟨_, last, rfl⟩, .inl ⟨_, rfl, stands⟩⟩
  | vacant last absent =>
      obtain rfl := Option.some.inj found
      exact ⟨⟨_, last, rfl⟩, .inr ⟨rfl, absent⟩⟩
  | directory | slashed | missing | invalid => cases found

/-- What stands at a place is no directory. -/
theorem entryAt?_of_place (found : store.place? path = some place) :
    store.entryAt? place ≠ some .directory := by
  obtain ⟨_, ⟨number, _, stands⟩ | ⟨_, absent⟩⟩ := reach_of_place found
  · simp [stands]
  · simp [absent]

theorem ne_nil_of_place (found : store.place? path = some place) : place ≠ [] := by
  rintro rfl
  exact entryAt?_of_place found rfl

/-- A path leads to a file exactly if there is one at its place. -/
theorem number?_eq_some_iff :
    store.number? path = some number ↔ ∃ place, store.reach path = .file place number := by
  constructor
  · intro numbered
    obtain ⟨place, found, stands⟩ := Option.bind_eq_some_iff.mp numbered
    obtain ⟨_, ⟨same, reached, entry⟩ | ⟨_, absent⟩⟩ := reach_of_place found
    · obtain rfl : same = number := by simpa [numberAt?, entry] using stands
      exact ⟨place, reached⟩
    · simp [numberAt?, absent] at stands
  · rintro ⟨place, reached⟩
    have found : store.place? path = some place := by simp [place?, reached, Reached.place?]
    obtain ⟨_, ⟨same, reachedToo, entry⟩ | ⟨reachedToo, _⟩⟩ := reach_of_place found
    · obtain ⟨-, rfl⟩ := Reached.file.inj (reached.symm.trans reachedToo)
      simp [number?, found, numberAt?, entry]
    · rw [reached] at reachedToo
      cases reachedToo

/-- A path leads to a place where nothing is exactly if it has a place but no number. -/
theorem reach_eq_vacant_iff :
    store.reach path = .vacant place false ↔
      store.place? path = some place ∧ store.number? path = none := by
  constructor
  · intro reached
    have found : store.place? path = some place := by simp [place?, reached, Reached.place?]
    refine ⟨found, ?_⟩
    obtain ⟨_, ⟨number, reachedToo, _⟩ | ⟨_, absent⟩⟩ := reach_of_place found
    · rw [reached] at reachedToo
      cases reachedToo
    · simp [number?, found, numberAt?, absent]
  · rintro ⟨found, unnumbered⟩
    obtain ⟨_, ⟨number, _, entry⟩ | ⟨reached, _⟩⟩ := reach_of_place found
    · simp [number?, found, numberAt?, entry] at unnumbered
    · exact reached

/-- The content at a path, read off the two maps. -/
theorem content?_eq (store : Store) (path : Path) :
    store.content? path = (store.number? path).bind store.holds? := by
  rw [content?]
  split
  · next place number reached =>
      rw [number?_eq_some_iff.mpr ⟨place, reached⟩]
      rfl
  · next leads =>
      cases numbered : store.number? path with
      | none => rfl
      | some number =>
          obtain ⟨place, reached⟩ := number?_eq_some_iff.mp numbered
          exact absurd reached (leads place number)

/-- Two paths with different last names have different places. -/
theorem place?_ne_of_lastName (found : (store.place? path).isSome)
    (differ : path.lastName? ≠ other.lastName?) : store.place? path ≠ store.place? other := by
  intro same
  obtain ⟨place, foundPlace⟩ := Option.isSome_iff_exists.mp found
  obtain ⟨⟨name, last, head⟩, _⟩ := reach_of_place foundPlace
  obtain ⟨⟨nameToo, lastToo, headToo⟩, _⟩ := reach_of_place (same ▸ foundPlace)
  obtain rfl : name = nameToo := Option.some.inj (head.symm.trans headToo)
  apply differ
  have asNames : path.lastName?.map String.ofList = other.lastName?.map String.ofList := by
    rw [Path.lastName?, Path.lastName?, ← List.getLast?_map, ← List.getLast?_map]
    exact last.trans lastToo.symm
  exact Option.map_injective (fun first second h => String.ofList_injective h) asNames

/-- Every file that has a name was numbered before. -/
def IsNumbered (store : Store) : Prop :=
  ∀ location number, store.numberAt? location = some number → number < store.fresh

theorem isNumbered_of_entries (bounded : ∀ entry ∈ store.entries, ∀ number,
    entry.2 = .file number → number < store.fresh) : store.IsNumbered := by
  intro location number stands
  rw [numberAt?] at stands
  split at stands
  · next numberToo entry =>
      obtain rfl := Option.some.inj stands
      cases location with
      | nil => cases entry
      | cons name outer =>
          obtain ⟨front, back, inside, -⟩ := List.lookup_eq_some_iff.mp entry
          exact bounded (name :: outer, .file numberToo) (by simp [inside]) numberToo rfl
  · cases stands

theorem IsNumbered.lt (numbered : store.IsNumbered) (named : store.number? path = some number) :
    number < store.fresh := by
  obtain ⟨place, _, stands⟩ := Option.bind_eq_some_iff.mp named
  exact numbered place number stands

end Store

end JavaStructure
