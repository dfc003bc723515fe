/-
# The writing of whole files

A text is written into a file of its own, in directories that are made for it. All other files stay
as they are. Whether it can be written depends on what stands on the way of its path, files and
none, and on whether its place is a directory; it does not matter which of the other directories are
there already.
-/

import JavaStructure.Interchange.Output
import JavaStructure.Proofs.Files.Footprints

namespace JavaStructure

open Program (step)

namespace Store

open JavaStructure.Path (IsVoid)

variable {store before middle after other : Store} {path front : Path} {place : Location}
variable {name : String} {content : Content} {elapsed : Nat} {written : Bool} {faults : Faults}

/-- What the file at a place holds. -/
def contentAt? (store : Store) (place : Location) : Option Content :=
  (store.numberAt? place).bind store.holds?

/-- What the file at the place of a path holds. -/
def contentOf? (store : Store) (path : Path) : Option Content :=
  store.contentAt? (store.location path)

theorem Deepens.contentAt? (deepens : Deepens before after) (place : Location) :
    after.contentAt? place = before.contentAt? place := by
  rw [Store.contentAt?, Store.contentAt?, deepens.numberAt?]
  exact Option.bind_congr fun number _ => deepens.holds? number

/-- The file at the place of a path may be another one or hold something else, and there may be
directories on its way. All else is the same. -/
structure Delivers (path : Path) (before after : Store) : Prop where
  changes : ChangesOnly (· = before.location path)
    (fun number => before.numberAt? (before.location path) = some number)
    (· ∈ before.way path) before after
  own : ∀ number, after.numberAt? (before.location path) = some number →
    before.numberAt? (before.location path) = some number ∨ before.fresh ≤ number

namespace Delivers

theorem of_deepensAlong (deepens : DeepensAlong (· ∈ before.way path) before after) :
    Delivers path before after where
  changes := .of_deepensAlong deepens
  own _ stands := .inl ((deepens.toDeepens.numberAt? _).symm.trans stands)

theorem of_pause (path : Path) (store : Store) (elapsed : Nat) :
    Delivers path store (store.pause elapsed) where
  changes := .of_pause store elapsed
  own _ := .inl

/-- First the directories, then the file. -/
theorem after_deepens (deepens : DeepensAlong (· ∈ before.way path) before middle)
    (delivers : Delivers path middle after) : Delivers path before after := by
  obtain ⟨changes, own⟩ := delivers
  have located := location_congr deepens.workingDirectory path
  have sameNumbers := deepens.toDeepens.numberAt?
  simp only [located, way_congr deepens.workingDirectory path, sameNumbers] at changes own
  refine ⟨ChangesOnly.trans (.of_deepensAlong deepens) changes, fun number stands => ?_⟩
  exact (own number stands).imp_right (Nat.le_trans deepens.fresh)

/-- The files at other places hold what they held. -/
theorem contentAt? (delivers : Delivers path before after) (numbered : before.IsNumbered)
    (elsewhere : place ≠ before.location path)
    (unshared : ∀ number, before.numberAt? place = some number →
      before.numberAt? (before.location path) ≠ some number) :
    after.contentAt? place = before.contentAt? place := by
  rw [Store.contentAt?, Store.contentAt?, delivers.changes.numberAt? place elsewhere]
  refine Option.bind_congr fun number stands => ?_
  exact delivers.changes.held number (numbered place number stands) (unshared number stands)

end Delivers

/-- What is written is found where it was written to. -/
theorem contentAt?_of_fills {number : Nat} (fills : Fills before after number content)
    (stands : before.numberAt? place = some number) : after.contentAt? place = some content := by
  rw [Store.contentAt?, fills.numberAt?, stands, Option.bind_some, fills.holds?, if_pos rfl]

/-- A write puts a content into the file at the place of its path, if it has one. -/
theorem delivers_of_write
    (answered : (store.pause elapsed).write path content = (written, after)) :
    Delivers path store after ∧ (written = true ↔ (store.place? path).isSome) ∧
      (written = true → after.contentAt? (store.location path) = some content) ∧
      (written = false → after = store.pause elapsed) := by
  have paused := pause_alike store elapsed
  rw [← paused.same.place? path]
  rw [write] at answered
  split at answered
  case h_1 place number reached =>
      obtain ⟨rfl, rfl⟩ := Prod.mk.inj answered
      have found : (store.pause elapsed).place? path = some place := by
        simp [place?, reached, Reached.place?]
      have located : (store.pause elapsed).location path = place := location_of_place? found
      change store.location path = place at located
      have fills := fill_fills (store.pause elapsed) number content
      have stands : (store.pause elapsed).numberAt? (store.location path) = some number := by
        rw [located]
        have named := number?_eq_some_iff.mpr ⟨place, reached⟩
        rwa [number?, found] at named
      refine ⟨⟨?_, fun other same => ?_⟩, by simp [found],
        fun _ => contentAt?_of_fills fills stands, by simp⟩
      · exact ChangesOnly.fills (.of_pause store elapsed) fills (.inr stands)
      · exact .inl same
  case h_2 place reached =>
      obtain ⟨rfl, rfl⟩ := Prod.mk.inj answered
      have found : (store.pause elapsed).place? path = some place := by
        simp [place?, reached, Reached.place?]
      have located : (store.pause elapsed).location path = place := location_of_place? found
      change store.location path = place at located
      have sets := put_sets found (store.pause elapsed).fresh
      have fills : Fills ((store.pause elapsed).put place (.file (store.pause elapsed).fresh))
          ((store.pause elapsed).create place content).2 (store.pause elapsed).fresh content :=
        (fill_fills _ _ _).alike (alike_of_eq rfl rfl rfl (Nat.le_succ _))
      have stands : ((store.pause elapsed).put place (.file (store.pause elapsed).fresh)).numberAt?
          (store.location path) = some store.fresh := by
        rw [sets.numberAt?, found, located, if_pos rfl]
        rfl
      refine ⟨⟨?_, fun other same => ?_⟩, by simp [found],
        fun _ => contentAt?_of_fills fills stands, by simp⟩
      · exact ChangesOnly.trans (.of_pause store elapsed)
          (.of_new sets fills (Nat.le_refl _) (Nat.lt_succ_self _) rfl)
      · rw [fills.numberAt?, stands] at same
        obtain rfl := Option.some.inj same
        exact .inr (Nat.le_refl _)
  case h_3 noFile noVacant =>
      obtain ⟨rfl, rfl⟩ := Prod.mk.inj answered
      refine ⟨.of_pause path store elapsed, iff_of_false (by simp) fun found => ?_, by simp,
        fun _ => rfl⟩
      obtain ⟨place, found⟩ := Option.isSome_iff_exists.mp found
      obtain ⟨-, ⟨number, reached, -⟩ | ⟨reached, -⟩⟩ := reach_of_place found
      · exact noFile place number reached
      · exact noVacant place reached

/-- Directories that have to be made are made on their way, in part if need be. -/
theorem ends_makeDirectories {failure : Failure} {result : Except Failure Unit}
    (ends : (Attempt.must failure (step (.makeDirectories path))).run.Ends (Faulty faults) store
      result after) : DeepensAlong (· ∈ store.way path) store after := by
  obtain ⟨_, ⟨_, _, ⟨-, elapsed, answered⟩ | ⟨-, -, deepens⟩, -, rfl⟩, -⟩ := Attempt.ends_must ends
  · exact deepensAlong_of_made answered
  · exact deepens

/-- A file that has to be written is written, in part if need be. -/
theorem ends_write {failure : Failure} {text : String} {result : Except Failure Unit}
    (ends : (Attempt.must failure (step (.writeText path text))).run.Ends (Faulty faults) store
      result after) : Delivers path store after := by
  obtain ⟨_, ⟨_, _, ⟨-, elapsed, answered⟩ | ⟨-, -, ⟨elapsed, rfl⟩ | ⟨elapsed, content, answered⟩⟩,
    -, rfl⟩, -⟩ := Attempt.ends_must ends
  · exact (delivers_of_write answered).1
  · exact .of_pause path store elapsed
  · exact (delivers_of_write answered).1

/-- The directories of a parent are on the way of the path. -/
theorem DeepensAlong.of_parent (cut : path.cutLast? = some (front, name))
    (deepens : DeepensAlong (· ∈ before.way front) before after) :
    DeepensAlong (· ∈ before.way path) before after := by
  refine deepens.mono fun place inside => ?_
  rw [way_of_cutLast? cut]
  exact List.mem_append_left _ inside

theorem exists_cut_of_parent? (parent : path.parent? = some front) :
    ∃ name, path.cutLast? = some (front, name) := by
  obtain ⟨⟨_, name⟩, cut, rfl⟩ := Option.map_eq_some_iff.mp parent
  exact ⟨name, cut⟩

theorem exists_cut_of_properParent? (parent : path.properParent? = some front) :
    ∃ name, path.cutLast? = some (front, name) :=
  exists_cut_of_parent? (Option.filter_eq_some_iff.mp parent).1

/-- However the writing of a file ends for which directories are made, no other file is touched. -/
theorem ends_delivery {parent? : Option Path} {text : String} {uncreated : Path → Failure}
    {unwritten : Failure} {result : Except Failure Unit}
    (parent : ∀ front, parent? = some front → ∃ name, path.cutLast? = some (front, name))
    (ends : (do
      if let some front := parent? then
        Attempt.must (uncreated front) (step (.makeDirectories front))
      Attempt.must unwritten (step (.writeText path text)) : Attempt Unit).run.Ends
      (Faulty faults) store result after) : Delivers path store after := by
  cases parent? with
  | none => exact ends_write ends
  | some front =>
      obtain ⟨name, cut⟩ := parent front rfl
      obtain ⟨failure, made, -⟩ | ⟨⟨⟩, middle, made, ends⟩ := Attempt.ends_bind ends
      · exact .of_deepensAlong ((ends_makeDirectories made).of_parent cut)
      · exact .after_deepens ((ends_makeDirectories made).of_parent cut) (ends_write ends)

theorem ends_writeDocument {model : Model} {result : Except Failure Unit}
    (ends : (Interchange.writeDocument model path).run.Ends (Faulty faults) store result after) :
    Delivers path store after :=
  ends_delivery (fun _ => exists_cut_of_parent?) ends

theorem ends_writeText {text : String} {result : Except Failure Unit}
    (ends : (Interchange.writeText path text).run.Ends (Faulty faults) store result after) :
    Delivers path store after :=
  ends_delivery (fun _ => exists_cut_of_properParent?) ends

/-- Two stores are the same for the writing of a path: what is a file on its way and what is none,
and whether a directory is at its place. -/
structure Resembles (path : Path) (store other : Store) : Prop where
  workingDirectory : other.workingDirectory = store.workingDirectory
  files : ∀ stop ∈ store.way path, other.numberAt? stop = none ↔ store.numberAt? stop = none
  directory : other.entryAt? (store.location path) = some .directory ↔
    store.entryAt? (store.location path) = some .directory

namespace Resembles

theorem symm (resembles : Resembles path store other) : Resembles path other store where
  workingDirectory := resembles.workingDirectory.symm
  files stop inside :=
    (resembles.files stop (way_congr resembles.workingDirectory path ▸ inside)).symm
  directory := by
    rw [location_congr resembles.workingDirectory]
    exact resembles.directory.symm

theorem trans (first : Resembles path before middle) (second : Resembles path middle after) :
    Resembles path before after where
  workingDirectory := second.workingDirectory.trans first.workingDirectory
  files stop inside :=
    (second.files stop (way_congr first.workingDirectory path ▸ inside)).trans
      (first.files stop inside)
  directory := by
    have located := location_congr first.workingDirectory path
    exact (located ▸ second.directory).trans first.directory

/-- What is changed elsewhere does not matter. -/
theorem of_changesOnly {spots ways : Location → Prop} {loose : Nat → Prop}
    (changes : ChangesOnly spots loose ways before after)
    (untouched : ∀ stop ∈ before.way path, ¬spots stop) (unmade : ¬ways (before.location path)) :
    Resembles path before after where
  workingDirectory := changes.workingDirectory
  files stop inside := by rw [changes.numberAt? stop (untouched stop inside)]
  directory :=
    ⟨fun stands => (changes.made _ stands).resolve_right unmade, changes.kept _⟩

/-- The directories of a parent can be made in both stores or in neither. -/
theorem makeDirectories (resembles : Resembles path store other)
    (cut : path.cutLast? = some (front, name)) :
    (other.makeDirectories front).1 = (store.makeDirectories front).1 := by
  by_cases empty : front.text = ""
  · rw [Store.makeDirectories, Store.makeDirectories, makeDirectoriesUpTo_of_empty _ empty,
      makeDirectoriesUpTo_of_empty _ empty]
  by_cases valid : IsValid front
  · have made (store : Store) : (store.makeDirectories front).1 = true ↔ LeadsClear store front :=
      makeDirectoriesUpTo_iff store (Path.isTrimmed_of_cutLast? cut) valid (Nat.lt_succ_self _)
    rw [Bool.eq_iff_iff, made, made, LeadsClear, LeadsClear, way_congr resembles.workingDirectory]
    refine forall₂_congr fun stop inside => and_congr_left' (resembles.files stop ?_)
    rw [way_of_cutLast? cut]
    exact List.mem_append_left _ inside
  · have unmade (store : Store) : (store.makeDirectories front).1 = false := by
      rw [Store.makeDirectories, makeDirectoriesUpTo, if_neg empty, reach_of_not_isValid valid,
        if_neg empty]
    rw [unmade, unmade]

/-- Stores in which the directories were made are the same still. -/
theorem after_made {made madeToo : Store} (resembles : Resembles path store other)
    (deepens : DeepensAlong (· ∈ store.way front) store made)
    (deepensToo : DeepensAlong (· ∈ other.way front) other madeToo)
    (opened : ∀ stop ∈ store.way front, made.entryAt? stop = some .directory)
    (openedToo : ∀ stop ∈ other.way front, madeToo.entryAt? stop = some .directory) :
    Resembles path made madeToo := by
  have ways := way_congr resembles.workingDirectory front
  refine ⟨?_, fun stop inside => ?_, ?_⟩
  · exact deepensToo.workingDirectory.trans
      (resembles.workingDirectory.trans deepens.workingDirectory.symm)
  · rw [way_congr deepens.workingDirectory] at inside
    rw [deepens.toDeepens.numberAt?, deepensToo.toDeepens.numberAt?]
    exact resembles.files stop inside
  · rw [location_congr deepens.workingDirectory]
    constructor
    · intro stands
      obtain before | onWay := deepensToo.made _ stands
      · exact deepens.directories _ (resembles.directory.mp before)
      · exact opened _ (ways ▸ onWay)
    · intro stands
      obtain before | onWay := deepens.made _ stands
      · exact deepensToo.directories _ (resembles.directory.mpr before)
      · exact openedToo _ (ways ▸ onWay)

/-- Where the directories are there, a file can be at the place of a path in both stores or in
neither. -/
theorem place?_isSome (resembles : Resembles path store other)
    (cut : path.cutLast? = some (front, name))
    (opened : ∀ stop ∈ store.way front, store.entryAt? stop = some .directory ∧ Fits stop)
    (openedToo : ∀ stop ∈ other.way front, other.entryAt? stop = some .directory ∧ Fits stop) :
    (other.place? path).isSome = (store.place? path).isSome := by
  by_cases valid : IsValid path
  · obtain ⟨after, void, -, reach⟩ := reach_of_cutLast? cut valid
    have located : store.location path = _ := location_of_cutLast? cut
    have directory := resembles.directory
    rw [place?, place?, reach store opened, reach other openedToo,
      start_congr resembles.workingDirectory]
    generalize destination (store.start path) front.names = outer at located
    rcases walk_cases name with skipped | rfl | ⟨kept, inner, long⟩ | proper
    · simp only [walk, if_pos skipped, walk_of_void _ void, Reached.place?]
    · simp [walk, walk_of_void _ void, Reached.place?]
    · simp [walk, kept, inner, long, Reached.place?]
    · obtain ⟨kept, inner, -⟩ := id proper
      have named : ¬IsVoid name := kept
      rw [destination, if_neg named, if_neg inner, destination] at located
      rw [located] at directory
      by_cases stands : store.entryAt? (name :: outer) = some .directory
      · rw [walk_of_directory proper stands, walk_of_directory proper (directory.mpr stands),
          walk_of_void _ void, walk_of_void _ void]
      · rw [(walk_of_no_directory after proper stands).1,
          (walk_of_no_directory after proper (mt directory.mp stands)).1]
  · have placeless (store : Store) : store.place? path = none := by
      rw [place?, reach_of_not_isValid valid]
      split <;> rfl
    rw [placeless, placeless]

theorem place?_isSome_of_no_parent (resembles : Resembles path store other)
    (parent : path.properParent? = none) :
    (other.place? path).isSome = (store.place? path).isSome := by
  cases cut : path.cutLast? with
  | none =>
      have void : ∀ name ∈ path.names, IsVoid name := Path.isVoidText_of_not_cut cut
      have placeless (store : Store) : store.place? path = none := by
        rw [place?]
        by_cases valid : IsValid path
        · rw [reach_of_isValid valid, walk_of_void _ void]
          rfl
        · rw [reach_of_not_isValid valid]
          split <;> rfl
      rw [placeless, placeless]
  | some parts =>
      obtain ⟨front, name⟩ := parts
      have empty : front.text = "" := by
        simpa [Path.properParent?, Path.parent?, cut] using parent
      have opened (store : Store) : ∀ stop ∈ store.way front,
          store.entryAt? stop = some .directory ∧ Fits stop := by
        rw [way_of_empty store empty]
        exact fun stop inside => absurd inside List.not_mem_nil
      exact resembles.place?_isSome cut (opened store) (opened other)

end Resembles

/-- How a write ends that is not refused. -/
theorem ends_write_none {failure : Failure} {text : String} {result : Except Failure Unit}
    (ends : (Attempt.must failure (step (.writeText path text))).run.Ends (Faulty .none) store
      result after) :
    result = (if (store.place? path).isSome then .ok () else .error failure) ∧
      after.contentAt? (store.location path) =
        if (store.place? path).isSome then some (.text text)
        else store.contentAt? (store.location path) := by
  obtain ⟨_, ⟨written, _, ⟨-, elapsed, answered⟩ | ⟨refused, -⟩, rfl, rfl⟩, rfl⟩ :=
    Attempt.ends_must ends
  · obtain ⟨-, writable, holds, stays⟩ := delivers_of_write answered
    rw [show (store.place? path).isSome = written from Bool.eq_iff_iff.mpr writable.symm]
    cases written with
    | true => exact ⟨rfl, holds rfl⟩
    | false => exact ⟨rfl, by rw [stays rfl]; rfl⟩
  · exact absurd refused Faults.not_none_strikes

/-- How directories are made where no step is refused. -/
theorem ends_makeDirectories_none {failure : Failure} {result : Except Failure Unit}
    (ends : (Attempt.must failure (step (.makeDirectories path))).run.Ends (Faulty .none) store
      result after) :
    result = (if (store.makeDirectories path).1 then .ok () else .error failure) ∧
      DeepensAlong (· ∈ store.way path) store after ∧
      (result = .ok () → ∀ stop ∈ store.way path,
        after.entryAt? stop = some .directory ∧ Fits stop) := by
  have deepens := ends_makeDirectories ends
  obtain ⟨_, ⟨_, _, ⟨-, elapsed, answered⟩ | ⟨refused, -⟩, rfl, rfl⟩, rfl⟩ :=
    Attempt.ends_must ends
  · have paused := makeDirectoriesUpTo_pause store elapsed path (path.text.length + 1)
    rw [answerAfter, answerNow, Store.makeDirectories, paused] at answered
    obtain ⟨rfl, rfl⟩ := Prod.mk.inj answered
    refine ⟨rfl, deepens, fun done => ?_⟩
    have made : (store.makeDirectories path).1 = true := by
      cases made : (store.makeDirectories path).1 with
      | true => rfl
      | false =>
          rw [Store.makeDirectories] at made
          rw [made] at done
          cases done
    exact opens_of_made store path _ made
  · exact absurd refused Faults.not_none_strikes

/-- A text is written in two stores that are the same for it, or in neither; it is then what its
file holds, and else its file holds what it held before. -/
theorem ends_writeText_none {text : String} {result resultToo : Except Failure Unit}
    {afterToo : Store} (resembles : Resembles path store other)
    (same : other.contentOf? path = store.contentOf? path)
    (ends : (Interchange.writeText path text).run.Ends (Faulty .none) store result after)
    (endsToo : (Interchange.writeText path text).run.Ends (Faulty .none) other resultToo afterToo) :
    result = resultToo ∧ after.contentOf? path = afterToo.contentOf? path := by
  have located := location_congr resembles.workingDirectory path
  rw [contentOf?, contentOf?, located] at same
  rw [contentOf?, location_congr (ends_writeText ends).changes.workingDirectory, contentOf?,
    location_congr (ends_writeText endsToo).changes.workingDirectory, located]
  rw [Interchange.writeText] at ends endsToo
  cases parent : path.properParent? with
  | none =>
      simp only [parent] at ends endsToo
      obtain ⟨rfl, held⟩ := ends_write_none ends
      obtain ⟨rfl, heldToo⟩ := ends_write_none endsToo
      rw [held, ← located, heldToo, located, same, resembles.place?_isSome_of_no_parent parent]
      exact ⟨rfl, rfl⟩
  | some front =>
      obtain ⟨name, cut⟩ := exists_cut_of_properParent? parent
      simp only [parent] at ends endsToo
      have alike := resembles.makeDirectories cut
      obtain ⟨failure, made, rfl⟩ | ⟨⟨⟩, middle, made, ends⟩ := Attempt.ends_bind ends <;>
        obtain ⟨failureToo, madeToo, rfl⟩ | ⟨⟨⟩, middleToo, madeToo, endsToo⟩ :=
          Attempt.ends_bind endsToo
      all_goals
        obtain ⟨results, deepens, opened⟩ := ends_makeDirectories_none made
        obtain ⟨resultsToo, deepensToo, openedToo⟩ := ends_makeDirectories_none madeToo
        rw [alike, ← results] at resultsToo
      · refine ⟨resultsToo.symm, ?_⟩
        rw [deepens.toDeepens.contentAt?, deepensToo.toDeepens.contentAt?, same]
      · cases resultsToo
      · cases resultsToo
      · have later := resembles.after_made deepens deepensToo
          (fun stop inside => (opened rfl stop inside).1)
          fun stop inside => (openedToo rfl stop inside).1
        have locatedMiddle := location_congr deepens.workingDirectory path
        have locatedToo := location_congr deepensToo.workingDirectory path
        rw [← way_congr deepens.workingDirectory] at opened
        rw [← way_congr deepensToo.workingDirectory] at openedToo
        have places := later.place?_isSome cut (opened rfl) (openedToo rfl)
        obtain ⟨rfl, held⟩ := ends_write_none ends
        obtain ⟨rfl, heldToo⟩ := ends_write_none endsToo
        rw [locatedToo, located, deepensToo.toDeepens.contentAt?, same, places] at heldToo
        rw [locatedMiddle, deepens.toDeepens.contentAt?] at held
        rw [held, heldToo, places]
        exact ⟨rfl, rfl⟩

/-- A path leads to a place, or through it. -/
def Passes (store : Store) (path : Path) (place : Location) : Prop :=
  place = store.location path ∨ place ∈ store.way path

theorem passes_congr (same : after.workingDirectory = before.workingDirectory) :
    after.Passes path place ↔ before.Passes path place := by
  rw [Passes, Passes, location_congr same, way_congr same]

/-- Neither of two paths leads to or through where the other one leads to, and they do not name one
file. -/
structure StandApart (store : Store) (path pathToo : Path) : Prop where
  passes : ¬store.Passes path (store.location pathToo)
  passesToo : ¬store.Passes pathToo (store.location path)
  unshared : ∀ number, store.numberAt? (store.location path) = some number →
    store.numberAt? (store.location pathToo) ≠ some number

/-- A store after a file was written to a path, if there is one. -/
def Writes (path? : Option Path) (before after : Store) : Prop :=
  after = before ∨ ∃ path ∈ path?, Delivers path before after

theorem Writes.changes {path? : Option Path} (writes : Writes path? before after) :
    after.workingDirectory = before.workingDirectory ∧ before.fresh ≤ after.fresh ∧
      (before.IsNumbered → after.IsNumbered) := by
  obtain rfl | ⟨path, -, delivers⟩ := writes
  · exact ⟨rfl, Nat.le_refl _, id⟩
  · exact ⟨delivers.changes.workingDirectory, delivers.changes.fresh, delivers.changes.isNumbered⟩

instance (store : Store) (path : Path) (place : Location) : Decidable (store.Passes path place) :=
  inferInstanceAs (Decidable (_ ∨ _))

instance (store : Store) (path pathToo : Path) : Decidable (store.StandApart path pathToo) :=
  decidable_of_iff (¬store.Passes path (store.location pathToo) ∧
      ¬store.Passes pathToo (store.location path) ∧
      ∀ number ∈ store.numberAt? (store.location path),
        store.numberAt? (store.location pathToo) ≠ some number)
    ⟨fun ⟨passes, passesToo, unshared⟩ => ⟨passes, passesToo, unshared⟩,
      fun ⟨passes, passesToo, unshared⟩ => ⟨passes, passesToo, unshared⟩⟩

namespace StandApart

variable {pathToo third : Path} {third? : Option Path}

theorem symm (apart : store.StandApart path pathToo) : store.StandApart pathToo path :=
  ⟨apart.passesToo, apart.passes, fun number stands same => apart.unshared number same stands⟩

theorem ne (apart : store.StandApart path pathToo) :
    store.location path ≠ store.location pathToo :=
  fun same => apart.passes (.inl same.symm)

/-- Only the files at the two places matter. -/
theorem congr (apart : before.StandApart path pathToo)
    (same : after.workingDirectory = before.workingDirectory)
    (unshared : ∀ number, after.numberAt? (before.location path) = some number →
      after.numberAt? (before.location pathToo) ≠ some number) :
    after.StandApart path pathToo := by
  refine ⟨?_, ?_, ?_⟩
  · rw [passes_congr same, location_congr same]
    exact apart.passes
  · rw [passes_congr same, location_congr same]
    exact apart.passesToo
  · rwa [location_congr same, location_congr same]

theorem of_changesOnly {spots ways : Location → Prop} {loose : Nat → Prop}
    (apart : before.StandApart path pathToo) (changes : ChangesOnly spots loose ways before after)
    (untouched : ¬spots (before.location path)) (untouchedToo : ¬spots (before.location pathToo)) :
    after.StandApart path pathToo := by
  refine apart.congr changes.workingDirectory ?_
  rw [changes.numberAt? _ untouched, changes.numberAt? _ untouchedToo]
  exact apart.unshared

/-- A file that is written is either the one that was at its place or a new one. -/
theorem of_delivers (apart : before.StandApart path pathToo) (numbered : before.IsNumbered)
    (delivers : Delivers third before after) : after.StandApart path pathToo := by
  refine apart.congr delivers.changes.workingDirectory fun number stands standsToo => ?_
  have elsewhere {place : Location} (differ : place ≠ before.location third) :
      after.numberAt? place = before.numberAt? place := delivers.changes.numberAt? place differ
  by_cases here : before.location path = before.location third
  · rw [elsewhere (here ▸ apart.ne.symm)] at standsToo
    obtain stood | young := delivers.own number (here ▸ stands)
    · exact apart.unshared number (here ▸ stood) standsToo
    · exact Nat.not_lt.mpr young (numbered _ number standsToo)
  · rw [elsewhere here] at stands
    by_cases hereToo : before.location pathToo = before.location third
    · obtain stood | young := delivers.own number (hereToo ▸ standsToo)
      · exact apart.unshared number stands (hereToo ▸ stood)
      · exact Nat.not_lt.mpr young (numbered _ number stands)
    · rw [elsewhere hereToo] at standsToo
      exact apart.unshared number stands standsToo

theorem of_writes (apart : before.StandApart path pathToo) (numbered : before.IsNumbered)
    (writes : Writes third? before after) : after.StandApart path pathToo := by
  obtain rfl | ⟨third, -, delivers⟩ := writes
  · exact apart
  · exact apart.of_delivers numbered delivers

end StandApart

/-- What is at a path is not changed by a write to one that stands apart. -/
theorem Writes.contentOf? {third? : Option Path} (writes : Writes third? before after)
    (apart : ∀ third ∈ third?, before.StandApart path third) (numbered : before.IsNumbered) :
    after.contentOf? path = before.contentOf? path := by
  obtain rfl | ⟨third, asked, delivers⟩ := writes
  · rfl
  · rw [Store.contentOf?, location_congr delivers.changes.workingDirectory]
    exact delivers.contentAt? numbered (apart third asked).ne (apart third asked).unshared

/-- Nor is what decides whether it can be written. -/
theorem Writes.resembles {third? : Option Path} (writes : Writes third? before after)
    (apart : ∀ third ∈ third?, before.StandApart path third) : Resembles path before after := by
  obtain rfl | ⟨third, asked, delivers⟩ := writes
  · exact ⟨rfl, fun _ _ => Iff.rfl, Iff.rfl⟩
  · refine .of_changesOnly delivers.changes (fun stop inside here => ?_) fun inside => ?_
    · exact (apart third asked).passes (.inr (here ▸ inside))
    · exact (apart third asked).passesToo (.inr inside)

end Store

end JavaStructure
