/-
# What keeps a text from being written

The directories for a file can be refused, or something on their way is no directory; the file
itself can be refused, or its place is none for a file. All of this is said of the store alone. A
text that is written all the same is what its file holds then.
-/

import JavaStructure.Proofs.Files.Deliveries

namespace JavaStructure

open Program (step)

namespace Store

variable {store after other : Store} {path front : Path} {name text : String} {elapsed : Nat}
variable {faults : Faults} {failure : Failure}

/-- A store in which the directories for a file were made, as far as they can be. -/
def prepared (store : Store) (path : Path) : Store :=
  path.properParent?.elim store fun front => (store.makeDirectories front).2

theorem prepared_of_parent (parent : path.properParent? = some front) :
    store.prepared path = (store.makeDirectories front).2 := by
  rw [prepared, parent, Option.elim_some]

theorem prepared_of_no_parent (parent : path.properParent? = none) :
    store.prepared path = store := by
  rw [prepared, parent, Option.elim_none]

/-- What keeps every text from being written to a path. -/
inductive IsUnwritable (faults : Faults) (store : Store) (path : Path) : Prop
  /-- The directories for it are refused. -/
  | closed (front : Path) (parent : path.properParent? = some front)
      (barred : faults.barred (.makeDirectories front))
  /-- The directories for it cannot be made. -/
  | blocked (front : Path) (parent : path.properParent? = some front)
      (unmade : (store.makeDirectories front).1 = false)
  /-- No file can be at its place, also when the directories are made. -/
  | placeless (nowhere : (store.prepared path).place? path = none)
  /-- All texts are refused. -/
  | barred (barred : ∀ text, faults.barred (.writeText path text))

/-- Stores that are the same for a path stay so when the directories are made in both. -/
theorem Resembles.place?_prepared (resembles : Resembles path store other)
    (made : ∀ front, path.properParent? = some front → (store.makeDirectories front).1 = true) :
    ((other.prepared path).place? path).isSome = ((store.prepared path).place? path).isSome := by
  cases parent : path.properParent? with
  | none =>
      rw [prepared_of_no_parent parent, prepared_of_no_parent parent]
      exact resembles.place?_isSome_of_no_parent parent
  | some front =>
      obtain ⟨name, cut⟩ := exists_cut_of_properParent? parent
      have madeHere := made front parent
      have madeToo : (other.makeDirectories front).1 = true :=
        (resembles.makeDirectories cut).trans madeHere
      have opened := opens_of_made store front _ madeHere
      have openedToo := opens_of_made other front _ madeToo
      have along := makeDirectoriesUpTo_along store front (front.text.length + 1)
      have alongToo := makeDirectoriesUpTo_along other front (front.text.length + 1)
      have later := resembles.after_made along alongToo (fun stop inside => (opened stop inside).1)
        fun stop inside => (openedToo stop inside).1
      rw [← way_congr along.workingDirectory] at opened
      rw [← way_congr alongToo.workingDirectory] at openedToo
      rw [prepared_of_parent parent, prepared_of_parent parent]
      exact later.place?_isSome cut opened openedToo

/-- What keeps a text out of a store keeps it out of one that is the same for the path. -/
theorem IsUnwritable.of_resembles (unwritable : IsUnwritable faults store path)
    (resembles : Resembles path store other) : IsUnwritable faults other path := by
  cases unwritable with
  | closed front parent barred => exact .closed front parent barred
  | barred barred => exact .barred barred
  | blocked front parent unmade =>
      obtain ⟨name, cut⟩ := exists_cut_of_properParent? parent
      exact .blocked front parent ((resembles.makeDirectories cut).trans unmade)
  | placeless nowhere =>
      by_cases made : ∀ front, path.properParent? = some front →
          (store.makeDirectories front).1 = true
      · have places := resembles.place?_prepared made
        rw [nowhere] at places
        exact .placeless (by simpa using places)
      · simp only [not_forall] at made
        obtain ⟨front, parent, unmade⟩ := made
        obtain ⟨name, cut⟩ := exists_cut_of_properParent? parent
        exact .blocked front parent
          ((resembles.makeDirectories cut).trans (Bool.eq_false_iff.mpr unmade))

theorem Resembles.of_pause (path : Path) (store : Store) (elapsed : Nat) :
    Resembles path store (store.pause elapsed) :=
  ⟨rfl, fun _ _ => Iff.rfl, Iff.rfl⟩

/-- Time that passes makes no difference to it. -/
theorem IsUnwritable.pause (unwritable : IsUnwritable faults store path) (elapsed : Nat) :
    IsUnwritable faults (store.pause elapsed) path :=
  unwritable.of_resembles (.of_pause path store elapsed)

/-- Directories that are made were not refused, and can be made. -/
theorem ends_makeDirectories_ok
    (ends : (Attempt.must failure (step (.makeDirectories front))).run.Ends (Faulty faults) store
      (.ok ()) after) :
    ¬faults.barred (.makeDirectories front) ∧ (store.makeDirectories front).1 = true ∧
      ∃ elapsed, after = (store.makeDirectories front).2.pause elapsed := by
  obtain ⟨done, ⟨answer, middle, answered, rfl, rfl⟩, same⟩ := Attempt.ends_must ends
  cases answer with
  | false => cases same
  | true =>
      obtain ⟨spared, elapsed, answered⟩ | ⟨-, other, -⟩ := answered
      · rw [answerAfter, answerNow, Store.makeDirectories, makeDirectoriesUpTo_pause] at answered
        obtain ⟨made, rfl⟩ := Prod.mk.inj answered
        exact ⟨spared, made, elapsed, rfl⟩
      · cases other

/-- A text that is written was not refused, and its place is there; it is what its file holds. -/
theorem ends_write_ok
    (ends : (Attempt.must failure (step (.writeText path text))).run.Ends (Faulty faults) store
      (.ok ()) after) :
    ¬faults.barred (.writeText path text) ∧ (store.place? path).isSome ∧
      after.contentAt? (store.location path) = some (.text text) := by
  obtain ⟨done, ⟨answer, middle, answered, rfl, rfl⟩, same⟩ := Attempt.ends_must ends
  cases answer with
  | false => cases same
  | true =>
      obtain ⟨spared, elapsed, answered⟩ | ⟨-, other, -⟩ := answered
      · obtain ⟨-, writable, holds, -⟩ := delivers_of_write answered
        exact ⟨spared, writable.mp rfl, holds rfl⟩
      · cases other

/-- When the parent of a path was made, all is prepared for a file. An empty parent is none. -/
theorem ends_makeDirectories_parent (parent : path.parent? = some front)
    (ends : (Attempt.must failure (step (.makeDirectories front))).run.Ends (Faulty faults) store
      (.ok ()) after) :
    (∀ proper, path.properParent? = some proper → ¬faults.barred (.makeDirectories proper) ∧
      (store.makeDirectories proper).1 = true) ∧
      ∃ elapsed, after = (store.prepared path).pause elapsed := by
  obtain ⟨spared, made, elapsed, rfl⟩ := ends_makeDirectories_ok ends
  by_cases empty : front.text = ""
  · have parentless : path.properParent? = none := by
      simp [Path.properParent?, parent, empty]
    rw [prepared_of_no_parent parentless, Store.makeDirectories,
      makeDirectoriesUpTo_of_empty store empty]
    refine ⟨fun proper other => ?_, elapsed, rfl⟩
    rw [parentless] at other
    cases other
  · have proper : path.properParent? = some front := by
      simp [Path.properParent?, parent, empty]
    rw [prepared_of_parent proper]
    refine ⟨fun other same => ?_, elapsed, rfl⟩
    obtain rfl := Option.some.inj (proper.symm.trans same)
    exact ⟨spared, made⟩

/-- A text that is written when all is prepared for it could be written, and is what its file
holds. -/
theorem ends_write_prepared
    (made : ∀ front, path.properParent? = some front → ¬faults.barred (.makeDirectories front) ∧
      (store.makeDirectories front).1 = true)
    (ends : (Attempt.must failure (step (.writeText path text))).run.Ends (Faulty faults)
      ((store.prepared path).pause elapsed) (.ok ()) after) :
    ¬IsUnwritable faults store path ∧ after.contentOf? path = some (.text text) := by
  obtain ⟨spared, placed, held⟩ := ends_write_ok ends
  have directory : after.workingDirectory = (store.prepared path).workingDirectory :=
    (ends_write ends).changes.workingDirectory
  refine ⟨?_, ?_⟩
  · rintro (⟨front, parent, barred⟩ | ⟨front, parent, unmade⟩ | nowhere | barred)
    · exact (made front parent).1 barred
    · rw [(made front parent).2] at unmade
      cases unmade
    · rw [(pause_alike _ elapsed).same.place? path, nowhere] at placed
      cases placed
    · exact spared (barred text)
  · calc after.contentOf? path
      _ = after.contentAt? ((store.prepared path).location path) := by
        rw [contentOf?, location_congr directory]
      _ = some (.text text) := held

/-- A file that is written, with the directories for it, could be written, and holds its text. -/
theorem ends_delivery_ok {parent? : Option Path} {uncreated : Path → Failure} {unwritten : Failure}
    (kind : parent? = path.parent? ∨ parent? = path.properParent?)
    (ends : (do
      if let some front := parent? then
        Attempt.must (uncreated front) (step (.makeDirectories front))
      Attempt.must unwritten (step (.writeText path text)) : Attempt Unit).run.Ends
      (Faulty faults) store (.ok ()) after) :
    ¬IsUnwritable faults store path ∧ after.contentOf? path = some (.text text) := by
  cases parent? with
  | none =>
      have parentless : path.properParent? = none := by
        obtain none | none := kind
        · simp [Path.properParent?, ← none]
        · exact none.symm
      have paused : store = (store.prepared path).pause 0 := by
        rw [pause_zero, prepared_of_no_parent parentless]
      have written : (Attempt.must unwritten (step (.writeText path text))).run.Ends
          (Faulty faults) ((store.prepared path).pause 0) (.ok ()) after := paused ▸ ends
      refine ends_write_prepared (fun front parent => ?_) written
      rw [parentless] at parent
      cases parent
  | some front =>
      have parent : path.parent? = some front := by
        obtain some | some := kind
        · exact some.symm
        · exact (Option.filter_eq_some_iff.mp some.symm).1
      obtain ⟨failure, -, other⟩ | ⟨⟨⟩, middle, first, ends⟩ := Attempt.ends_bind ends
      · cases other
      obtain ⟨made, elapsed, rfl⟩ := ends_makeDirectories_parent parent first
      exact ends_write_prepared made ends

theorem ends_writeDocument_ok {model : Model}
    (ends : (Interchange.writeDocument model path).run.Ends (Faulty faults) store (.ok ()) after) :
    ¬IsUnwritable faults store path ∧
      after.contentOf? path = some (.text (Interchange.renderModel model)) :=
  ends_delivery_ok (.inl rfl) ends

theorem ends_writeText_ok
    (ends : (Interchange.writeText path text).run.Ends (Faulty faults) store (.ok ()) after) :
    ¬IsUnwritable faults store path ∧ after.contentOf? path = some (.text text) :=
  ends_delivery_ok (.inr rfl) ends

end Store

end JavaStructure
