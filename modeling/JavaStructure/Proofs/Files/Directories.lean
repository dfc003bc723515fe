/-
# Making directories

A directory is only made where nothing was, so no file and no directory is lost by
it. A path whose directories could be made leads to a directory, and from then on there
is nothing left to make.
-/

import JavaStructure.Proofs.Files.Steps

namespace JavaStructure

namespace Store

variable {store before middle after : Store} {path other : Path} {location place : Location}
variable {names : List String} {number elapsed : Nat}

/-- There are more directories, and the files are the same. -/
structure Deepens (before after : Store) : Prop where
  workingDirectory : after.workingDirectory = before.workingDirectory
  directories : ∀ location, before.entryAt? location = some .directory →
    after.entryAt? location = some .directory
  files : ∀ location number, after.entryAt? location = some (.file number) ↔
    before.entryAt? location = some (.file number)
  holds? : ∀ number, after.holds? number = before.holds? number
  fresh : before.fresh ≤ after.fresh

namespace Deepens

theorem refl (store : Store) : Deepens store store :=
  ⟨rfl, fun _ => id, fun _ _ => Iff.rfl, fun _ => rfl, Nat.le_refl _⟩

theorem trans (first : Deepens before middle) (second : Deepens middle after) :
    Deepens before after where
  workingDirectory := second.workingDirectory.trans first.workingDirectory
  directories location stands := second.directories location (first.directories location stands)
  files location number := (second.files location number).trans (first.files location number)
  holds? number := (second.holds? number).trans (first.holds? number)
  fresh := Nat.le_trans first.fresh second.fresh

theorem numberAt? (deepens : Deepens before after) (place : Location) :
    after.numberAt? place = before.numberAt? place := by
  apply Option.ext
  intro number
  have read (store : Store) :
      store.numberAt? place = some number ↔ store.entryAt? place = some (.file number) := by
    rw [Store.numberAt?]
    split
    · next held stands => simp [stands]
    · next absent => simpa using absent number
  rw [read, read]
  exact deepens.files place number

theorem isNumbered (deepens : Deepens before after) (numbered : before.IsNumbered) :
    after.IsNumbered := by
  intro place number stands
  rw [deepens.numberAt?] at stands
  exact Nat.lt_of_lt_of_le (numbered place number stands) deepens.fresh

end Deepens

/-- A directory is put where nothing was. -/
theorem put_deepens (absent : store.entryAt? location = none) :
    Deepens store (store.put location .directory) := by
  have entry (other : Location) : (store.put location .directory).entryAt? other =
      if other = location then some .directory else store.entryAt? other := by
    rw [entryAt?_put]
    by_cases here : other = []
    · subst here
      simp [entryAt?]
    · simp [here]
  refine ⟨rfl, fun other stands => ?_, fun other number => ?_, fun _ => rfl, Nat.le_refl _⟩
  · rw [entry]
    split
    · rfl
    · exact stands
  · rw [entry]
    by_cases same : other = location
    · simp [same, absent]
    · simp [same]

/-- Empty names lead nowhere else. -/
theorem walk_of_empty (store : Store) (location : Location) {names : List String}
    (empty : ∀ name ∈ names, name = "") : store.walk location names = .directory location := by
  induction names with
  | nil => rfl
  | cons name rest ih =>
      obtain ⟨rfl, emptyRest⟩ := List.forall_mem_cons.mp empty
      simpa [walk] using ih emptyRest

/-- A walk that ended where nothing was ends in the directory that is made there. -/
theorem walk_put (absent : store.entryAt? place = none) {slash : Bool} (location : Location)
    (names : List String) (ended : store.walk location names = .vacant place slash) :
    (store.put place .directory).walk location names = .directory place := by
  induction names generalizing location with
  | nil => simp [walk] at ended
  | cons name rest ih =>
      rcases walk_cases name with skipped | outward | ⟨kept, inner, long⟩ | proper
      · simp only [walk, if_pos skipped] at ended ⊢
        exact ih location ended
      · subst outward
        simp only [walk] at ended ⊢
        exact ih location.tail (by simpa using ended)
      · simp [walk, kept, inner, long] at ended
      · cases stands : store.entryAt? (name :: location) with
        | none =>
            obtain ⟨kept, inner, short⟩ := id proper
            simp only [walk, if_neg kept, if_neg inner, if_neg short, stands] at ended
            split at ended
            · next empty =>
                obtain ⟨rfl, -⟩ := Reached.vacant.inj ended
                have made : (store.put (name :: location) .directory).entryAt? (name :: location) =
                    some .directory := by simp [entryAt?_put]
                rw [walk_of_directory proper made]
                exact walk_of_empty _ _ empty
            · cases ended
        | some entry =>
            cases entry with
            | directory =>
                rw [walk_of_directory proper stands] at ended
                rw [walk_of_directory proper ((put_deepens absent).directories _ stands)]
                exact ih (name :: location) ended
            | file number =>
                obtain ⟨kept, inner, short⟩ := proper
                simp only [walk, if_neg kept, if_neg inner, if_neg short, stands] at ended
                split at ended <;> cases ended

theorem reach_put {slash : Bool} (ended : store.reach path = .vacant place slash) :
    store.entryAt? place = none ∧
      (store.put place .directory).reach path = .directory place := by
  have absent : store.entryAt? place = none := by
    have ends := reach_ends store path
    rw [ended] at ends
    cases ends <;> assumption
  refine ⟨absent, ?_⟩
  rw [reach] at ended ⊢
  split at ended
  · cases ended
  · split at ended
    · cases ended
    · next proper short =>
        rw [if_neg proper, if_neg short]
        exact walk_put absent _ _ ended

/-- Making directories keeps what there is, and makes the path lead to one if it
succeeds. -/
theorem makeDirectoriesUpTo_spec (store : Store) (path : Path) (depth : Nat) :
    Deepens store (store.makeDirectoriesUpTo path depth).2 ∧
      ((store.makeDirectoriesUpTo path depth).1 = true → path.text ≠ "" →
        ∃ place, (store.makeDirectoriesUpTo path depth).2.reach path = .directory place) := by
  induction depth generalizing path with
  | zero =>
      exact ⟨.refl store,
        fun made named => absurd (by simpa [makeDirectoriesUpTo] using made) named⟩
  | succ depth ih =>
      by_cases empty : path.text = ""
      · simp [makeDirectoriesUpTo, empty, Deepens.refl]
      rw [makeDirectoriesUpTo, if_neg empty]
      split
      · next place slash ended =>
          obtain ⟨absent, leads⟩ := reach_put ended
          exact ⟨put_deepens absent, fun _ _ => ⟨place, leads⟩⟩
      · next place ended => exact ⟨.refl store, fun _ _ => ⟨place, ended⟩⟩
      · split
        · exact ⟨.refl store, fun made => by cases made⟩
        · next parent _ =>
            have outer := (ih parent).1
            split
            · next left outcome =>
                rw [outcome] at outer
                exact ⟨outer, fun made => by cases made⟩
            · next left outcome =>
                rw [outcome] at outer
                split
                · next place slash ended =>
                    obtain ⟨absent, leads⟩ := reach_put ended
                    exact ⟨outer.trans (put_deepens absent), fun _ _ => ⟨place, leads⟩⟩
                · next place ended => exact ⟨outer, fun _ _ => ⟨place, ended⟩⟩
                · exact ⟨outer, fun made => by cases made⟩
      · exact ⟨.refl store, fun made => by cases made⟩

theorem walk_pause (store : Store) (elapsed : Nat) (location : Location) (names : List String) :
    (store.pause elapsed).walk location names = store.walk location names := by
  induction names generalizing location with
  | nil => rfl
  | cons name rest ih =>
      rw [walk, walk, ih, ih, ih]
      rfl

theorem reach_pause (store : Store) (elapsed : Nat) (path : Path) :
    (store.pause elapsed).reach path = store.reach path := by
  rw [reach, reach, walk_pause]
  rfl

/-- Time makes no difference to the making of directories. -/
theorem makeDirectoriesUpTo_pause (store : Store) (elapsed : Nat) (path : Path) (depth : Nat) :
    (store.pause elapsed).makeDirectoriesUpTo path depth =
      ((store.makeDirectoriesUpTo path depth).1,
        (store.makeDirectoriesUpTo path depth).2.pause elapsed) := by
  induction depth generalizing path with
  | zero => rfl
  | succ depth ih =>
      rw [makeDirectoriesUpTo, makeDirectoriesUpTo, reach_pause]
      split
      · rfl
      · split
        · rfl
        · rfl
        · split
          · rfl
          · next parent _ =>
              rw [ih]
              generalize store.makeDirectoriesUpTo parent depth = outer
              obtain ⟨made, left⟩ := outer
              cases made with
              | false => rfl
              | true =>
                  dsimp only
                  rw [reach_pause]
                  split <;> rfl
        · rfl

/-- A path that leads to a directory needs none to be made. -/
theorem makeDirectories_of_directory (leads : store.reach path = .directory place) :
    store.makeDirectories path = (true, store) := by
  rw [makeDirectories, makeDirectoriesUpTo]
  split
  · rfl
  · rw [leads]

end Store

end JavaStructure
