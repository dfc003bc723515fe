/-
# Endings of programs

A step may be answered in more than one way: a store that would answer it can still refuse it, and
time passes as it will. A program then has many endings, and what is true of a program is true of
all of them. This module takes endings apart along the program, and says what it means that the
files of a store are retained.
-/

import JavaStructure.Proofs.Files.Directories

namespace JavaStructure

/-- The ways in which a step may be answered in a store: with which answer, and which store after
it. -/
abbrev Answering := Store → (request : Request) → request.Answer → Store → Prop

namespace Program

variable {α β : Type} {answering : Answering} {store after : Store}

/-- Whether a program can end with a value and a store. -/
def Ends (answering : Answering) : Program α → Store → α → Store → Prop
  | .done value, store, result, after => value = result ∧ store = after
  | .ask request next, store, result, after =>
      ∃ answer middle, answering store request answer middle ∧
        (next answer).Ends answering middle result after

/-- The second program goes on from where the first one ended. -/
theorem ends_bind {first : Program α} {next : α → Program β} {result : β} :
    (first >>= next).Ends answering store result after ↔
      ∃ value middle, first.Ends answering store value middle ∧
        (next value).Ends answering middle result after := by
  induction first generalizing store with
  | done value =>
      constructor
      · exact fun ends => ⟨value, store, ⟨rfl, rfl⟩, ends⟩
      · rintro ⟨_, _, ⟨rfl, rfl⟩, ends⟩
        exact ends
  | ask request rest ih =>
      constructor
      · rintro ⟨answer, between, answered, ends⟩
        obtain ⟨value, middle, first, second⟩ := (ih answer).mp ends
        exact ⟨value, middle, ⟨answer, between, answered, first⟩, second⟩
      · rintro ⟨value, middle, ⟨answer, between, answered, first⟩, second⟩
        exact ⟨answer, between, answered, (ih answer).mpr ⟨value, middle, first, second⟩⟩

/-- A step in front of a program. -/
theorem ends_ask {request : Request} {next : request.Answer → Program α} {result : α} :
    (step request >>= next).Ends answering store result after ↔
      ∃ answer middle, answering store request answer middle ∧
        (next answer).Ends answering middle result after :=
  Iff.rfl

/-- A step whose answer does not count. -/
theorem ends_discard {request : Request} {result : Unit} :
    (discard (step request)).Ends answering store result after ↔
      ∃ answer, answering store request answer after := by
  constructor
  · rintro ⟨answer, middle, answered, -, rfl⟩
    exact ⟨answer, answered⟩
  · rintro ⟨answer, answered⟩
    exact ⟨answer, after, answered, rfl, rfl⟩

/-- The age that an answer says a file has. -/
def ageIn : (request : Request) → request.Answer → Option Nat
  | .age _, age? => age?
  | _, _ => none

/-- The ages that a run is answered with. -/
def agesIn : Program α → Store → List Nat
  | .done _, _ => []
  | .ask request next, store =>
      (ageIn request (store.answer request).1).toList ++
        (next (store.answer request).1).agesIn (store.answer request).2

/-- A run on a store is an ending if its answers are allowed, as far as ages go. -/
theorem ends_run {limit : Nat} (program : Program α) (store : Store)
    (young : ∀ age ∈ program.agesIn store, age ≤ limit)
    (allowed : ∀ (store : Store) (request : Request),
      (∀ age ∈ ageIn request (store.answer request).1, age ≤ limit) →
      answering store request (store.answer request).1 (store.answer request).2) :
    program.Ends answering store (program.run store).1 (program.run store).2 := by
  induction program generalizing store with
  | done value => exact ⟨rfl, rfl⟩
  | ask request next ih =>
      rw [agesIn] at young
      refine ⟨_, _, allowed store request fun age inside => young age ?_,
        ih _ _ fun age inside => young age (List.mem_append_right _ inside)⟩
      exact List.mem_append_left _ (Option.mem_toList.mpr inside)

end Program

namespace Attempt

variable {α β : Type} {answering : Answering} {store after : Store} {attempt : Attempt α}

/-- What follows an attempt goes on from where it ended, unless it failed. -/
theorem ends_bind_iff {next : α → Attempt β} {result : Except Failure β} :
    (attempt >>= next).run.Ends answering store result after ↔
      (∃ failure, attempt.run.Ends answering store (.error failure) after ∧
        result = .error failure) ∨
      ∃ value middle, attempt.run.Ends answering store (.ok value) middle ∧
        (next value).run.Ends answering middle result after := by
  rw [ExceptT.run_bind, Program.ends_bind]
  constructor
  · rintro ⟨value, middle, first, second⟩
    cases value with
    | error failure =>
        obtain ⟨rfl, rfl⟩ := second
        exact .inl ⟨failure, first, rfl⟩
    | ok value => exact .inr ⟨value, middle, first, second⟩
  · rintro (⟨failure, first, rfl⟩ | ⟨value, middle, first, second⟩)
    · exact ⟨.error failure, after, first, rfl, rfl⟩
    · exact ⟨.ok value, middle, first, second⟩

theorem ends_bind {next : α → Attempt β} {result : Except Failure β}
    (ends : (attempt >>= next).run.Ends answering store result after) :
    (∃ failure, attempt.run.Ends answering store (.error failure) after ∧
        result = .error failure) ∨
      ∃ value middle, attempt.run.Ends answering store (.ok value) middle ∧
        (next value).run.Ends answering middle result after :=
  ends_bind_iff.mp ends

/-- A failure that is told in other words. -/
theorem ends_adapt {told : Failure → Failure} {result : Except Failure α} :
    (ExceptT.adapt told attempt).run.Ends answering store result after ↔
      ∃ value, attempt.run.Ends answering store value after ∧ result = value.mapError told := by
  have retold : (ExceptT.adapt told attempt).run = Except.mapError told <$> attempt.run := rfl
  rw [retold, map_eq_pure_bind, Program.ends_bind]
  constructor
  · rintro ⟨value, middle, ends, rfl, rfl⟩
    exact ⟨value, ends, rfl⟩
  · rintro ⟨value, ends, rfl⟩
    exact ⟨value, after, ends, rfl, rfl⟩

/-- A program as an attempt does not fail. -/
theorem ends_lift {program : Program α} {result : Except Failure α}
    (ends : (ExceptT.lift program : Attempt α).run.Ends answering store result after) :
    ∃ value, program.Ends answering store value after ∧ result = .ok value := by
  rw [ExceptT.run_lift, map_eq_pure_bind] at ends
  obtain ⟨value, middle, first, rfl, rfl⟩ := Program.ends_bind.mp ends
  exact ⟨value, first, rfl⟩

/-- A program in front of an attempt. -/
theorem ends_after {program : Program α} {next : α → Attempt β} {result : Except Failure β}
    (ends : ((liftM program : Attempt α) >>= next).run.Ends answering store result after) :
    ∃ value middle, program.Ends answering store value middle ∧
      (next value).run.Ends answering middle result after := by
  obtain ⟨failure, first, -⟩ | ⟨value, middle, first, second⟩ := ends_bind ends
  · obtain ⟨_, _, other⟩ := ends_lift first
    cases other
  · obtain ⟨valueToo, lifted, same⟩ := ends_lift first
    obtain rfl := Except.ok.inj same
    exact ⟨value, middle, lifted, second⟩

/-- A step in front of an attempt. -/
theorem ends_ask {request : Request} {next : request.Answer → Attempt β}
    {result : Except Failure β}
    (ends : ((liftM (Program.step request) : Attempt _) >>= next).run.Ends answering store result
      after) :
    ∃ answer middle, answering store request answer middle ∧
      (next answer).run.Ends answering middle result after := by
  obtain ⟨answer, middle, ⟨_, _, answered, rfl, rfl⟩, second⟩ := ends_after ends
  exact ⟨_, _, answered, second⟩

/-- A step that has to be done fails if it is not. -/
theorem ends_must {failure : Failure} {program : Program Bool} {result : Except Failure Unit}
    (ends : (must failure program).run.Ends answering store result after) :
    ∃ done, program.Ends answering store done after ∧
      result = if done then .ok () else .error failure := by
  obtain ⟨done, middle, first, second⟩ := ends_after ends
  cases done with
  | true =>
      obtain ⟨rfl, rfl⟩ := second
      exact ⟨true, first, rfl⟩
  | false =>
      obtain ⟨rfl, rfl⟩ := second
      exact ⟨false, first, rfl⟩

/-- An attempt whose value does not count, in front of another. -/
theorem ends_discard {first : Attempt α} {next : Unit → Attempt β} {result : Except Failure β}
    (ends : (discard first >>= next).run.Ends answering store result after) :
    (∃ failure, first.run.Ends answering store (.error failure) after ∧ result = .error failure) ∨
      ∃ value middle, first.run.Ends answering store (.ok value) middle ∧
        (next ()).run.Ends answering middle result after := by
  have forget {reached : Except Failure Unit} {left : Store}
      (ends : (discard first : Attempt Unit).run.Ends answering store reached left) :
      ∃ value, first.run.Ends answering store value left ∧ reached = value.map fun _ => () := by
    obtain ⟨value, middle, ran, rest⟩ :=
      (@Program.ends_bind _ _ answering _ _ first.run _ _).mp ends
    cases value <;>
    · obtain ⟨rfl, rfl⟩ := rest
      exact ⟨_, ran, rfl⟩
  obtain ⟨failure, ran, rfl⟩ | ⟨⟨⟩, middle, ran, rest⟩ := ends_bind ends
  · obtain ⟨value, ran, same⟩ := forget ran
    cases value with
    | error failure =>
        obtain rfl := Except.error.inj same
        exact .inl ⟨_, ran, rfl⟩
    | ok value => cases same
  · obtain ⟨value, ran, same⟩ := forget ran
    cases value with
    | error failure => cases same
    | ok value => exact .inr ⟨value, middle, ran, rest⟩

/-- A failure is dealt with where it ended. -/
theorem ends_tryCatch {deal : Failure → Attempt α} {result : Except Failure α}
    (ends : (tryCatch attempt deal).run.Ends answering store result after) :
    (∃ value, attempt.run.Ends answering store (.ok value) after ∧ result = .ok value) ∨
      ∃ failure middle, attempt.run.Ends answering store (.error failure) middle ∧
        (deal failure).run.Ends answering middle result after := by
  obtain ⟨value, middle, first, second⟩ :=
    (@Program.ends_bind _ _ answering _ _ attempt.run _ _).mp ends
  cases value with
  | error failure => exact .inr ⟨failure, middle, first, second⟩
  | ok value =>
      obtain ⟨rfl, rfl⟩ := second
      exact .inl ⟨value, first, rfl⟩

end Attempt

namespace Store

variable {before middle after created filled later : Store} {path : Path} {place : Location}
variable {handle number : Nat} {content contentToo : Content} {exempt exemptToo : Location → Prop}

theorem Creates.numberAt? (creates : Creates before after path handle) (place : Location) :
    after.numberAt? place =
      if before.place? path = some place then some handle else before.numberAt? place := by
  obtain ⟨middle, sets, fills⟩ := creates.steps
  rw [fills.numberAt?, sets.numberAt?]

/-- At the place of a path that leads to no file, there is none. -/
theorem numberAt?_of_free (free : before.number? path = none)
    (found : before.place? path = some place) : before.numberAt? place = none := by
  rwa [number?, found, Option.bind_some] at free

theorem Fills.trans (first : Fills before middle number content)
    (second : Fills middle after number contentToo) : Fills before after number contentToo where
  same := first.same.trans second.same
  numberAt? place := (second.numberAt? place).trans (first.numberAt? place)
  holds? other := by
    rw [second.holds?, first.holds?]
    split <;> rfl
  fresh := Nat.le_trans first.fresh second.fresh

/-- The files of a store are the same at all places that are not exempt, and what was held by a
file before is held by it still. -/
structure Retains (exempt : Location → Prop) (before after : Store) : Prop where
  numberAt? : ∀ place, ¬exempt place → after.numberAt? place = before.numberAt? place
  held : ∀ number, number < before.fresh → after.holds? number = before.holds? number
  fresh : before.fresh ≤ after.fresh

namespace Retains

theorem of_alike (alike : Alike before after) : Retains exempt before after :=
  ⟨fun place _ => alike.numberAt? place, fun number _ => alike.holds? number, alike.fresh⟩

theorem trans (first : Retains exempt before middle) (second : Retains exempt middle after) :
    Retains exempt before after where
  numberAt? place plain := (second.numberAt? place plain).trans (first.numberAt? place plain)
  held number older := (second.held number (Nat.lt_of_lt_of_le older first.fresh)).trans
    (first.held number older)
  fresh := Nat.le_trans first.fresh second.fresh

theorem mono (retains : Retains exempt before after)
    (more : ∀ place, exempt place → exemptToo place) : Retains exemptToo before after :=
  ⟨fun place plain => retains.numberAt? place fun inside => plain (more place inside),
    retains.held, retains.fresh⟩

/-- A new file whose name is taken away in the end was never there. -/
theorem of_undone (creates : Creates before created path handle)
    (fills : Fills created filled handle content) (retains : Retains exempt filled later)
    (same : SameDirectories filled later) (removed : Sets later after path none) :
    Retains exempt before after where
  numberAt? place plain := by
    have placed : later.place? path = before.place? path := by
      rw [same.place?, fills.same.place?, creates.same.place?]
    rw [removed.numberAt?, placed, retains.numberAt? place plain, fills.numberAt?,
      creates.numberAt?]
    split
    · next here => exact (numberAt?_of_free creates.free here).symm
    · rfl
  held number older := by
    have newer := creates.ne_of_lt older
    have stillOlder : number < filled.fresh :=
      Nat.lt_of_lt_of_le older (Nat.le_trans creates.fresh_le fills.fresh)
    calc after.holds? number
      _ = later.holds? number := removed.holds? number
      _ = filled.holds? number := retains.held number stillOlder
      _ = created.holds? number := by rw [fills.holds?, if_neg newer]
      _ = before.holds? number := by rw [creates.holds?, if_neg newer]
  fresh :=
    calc before.fresh
      _ ≤ created.fresh := creates.fresh_le
      _ ≤ filled.fresh := fills.fresh
      _ ≤ later.fresh := retains.fresh
      _ ≤ after.fresh := removed.fresh

/-- A new file that takes the place of another leaves the files at all other places. -/
theorem of_renamed {source target : Path} (numbered : before.IsNumbered)
    (creates : Creates before created source handle) (fills : Fills created filled handle content)
    (renames : Renames filled after source target) :
    Retains (fun place => before.place? target = some place) before after := by
  have placed (path : Path) : filled.place? path = before.place? path := by
    rw [fills.same.place?, creates.same.place?]
  have heldNow (number : Nat) (older : number < before.fresh) :
      filled.holds? number = before.holds? number := by
    have newer := creates.ne_of_lt older
    rw [fills.holds?, if_neg newer, creates.holds?, if_neg newer]
  have freshNow : before.fresh ≤ filled.fresh := Nat.le_trans creates.fresh_le fills.fresh
  obtain ⟨number, named, ways⟩ := renames.steps
  have own : filled.number? source = some handle := by
    rw [fills.number?, creates.number?, if_pos rfl]
  obtain rfl : handle = number := Option.some.inj (own.symm.trans named)
  obtain ⟨sameFile, alike⟩ | ⟨-, between, dropped, set⟩ := ways
  · -- The new file was made at the place of the other, which had none.
    refine ⟨fun place elsewhere => ?_, fun number older => ?_, ?_⟩
    · rw [alike.numberAt?, fills.numberAt?, creates.numberAt?, if_neg]
      intro here
      rw [fills.number?, creates.number?] at sameFile
      split at sameFile
      · next samePlace => exact elsewhere (samePlace.trans here)
      · exact creates.number?_ne numbered target sameFile
    · rw [alike.holds?, heldNow number older]
    · exact Nat.le_trans freshNow alike.fresh
  · refine ⟨fun place elsewhere => ?_, fun number older => ?_, ?_⟩
    · rw [set.numberAt?, dropped.same.place?, placed, if_neg elsewhere, dropped.numberAt?, placed,
        fills.numberAt?, creates.numberAt?]
      split
      · next here => exact (numberAt?_of_free creates.free here).symm
      · rfl
    · rw [set.holds?, dropped.holds?, heldNow number older]
    · calc before.fresh
        _ ≤ filled.fresh := freshNow
        _ ≤ between.fresh := dropped.fresh
        _ ≤ after.fresh := set.fresh

end Retains

/-- Whatever stands somewhere stands in a directory. -/
def IsTree (store : Store) : Prop :=
  ∀ name outer, (store.entryAt? (name :: outer)).isSome → store.entryAt? outer = some .directory

theorem isTree_of_entries {store : Store}
    (inside : ∀ entry ∈ store.entries, store.entryAt? entry.1.tail = some .directory) :
    store.IsTree := by
  intro name outer stands
  obtain ⟨entry, found⟩ := Option.isSome_iff_exists.mp stands
  obtain ⟨front, back, listed, -⟩ := List.lookup_eq_some_iff.mp found
  exact inside (name :: outer, entry) (by simp [listed])

/-- Every directory on the way to something in a tree is one. -/
theorem IsTree.directory {store : Store} (tree : store.IsTree) {place outer : Location}
    (stands : (store.entryAt? place).isSome) (within : outer <:+ place) (proper : outer ≠ place) :
    store.entryAt? outer = some .directory := by
  obtain ⟨front, rfl⟩ := within
  induction front with
  | nil => exact absurd rfl proper
  | cons name front ih =>
      have inside := tree name (front ++ outer) stands
      by_cases here : front = []
      · subst here
        exact inside
      · exact ih (by rw [inside]; rfl) fun same => here (by simpa using same)

variable {names : List String} {location : Location}

/-- A walk that ends at a file ends there too when there are more directories. -/
theorem Deepens.walk_file (deepens : Deepens before after)
    (ended : before.walk location names = .file place number) :
    after.walk location names = .file place number := by
  induction names generalizing location with
  | nil => cases ended
  | cons name rest ih =>
      rcases walk_cases name with skipped | outward | ⟨kept, inner, long⟩ | proper
      · simp only [walk, if_pos skipped] at ended ⊢
        exact ih ended
      · subst outward
        simp only [walk] at ended ⊢
        exact ih (by simpa using ended)
      · simp [walk, kept, inner, long] at ended
      · cases stands : before.entryAt? (name :: location) with
        | none =>
            obtain ⟨kept, inner, short⟩ := proper
            simp only [walk, if_neg kept, if_neg inner, if_neg short, stands] at ended
            split at ended <;> cases ended
        | some entry =>
            cases entry with
            | directory =>
                rw [walk_of_directory proper stands] at ended
                rw [walk_of_directory proper (deepens.directories _ stands)]
                exact ih ended
            | file other =>
                obtain ⟨kept, inner, short⟩ := proper
                simp only [walk, if_neg kept, if_neg inner, if_neg short, stands,
                  (deepens.files _ other).mpr stands] at ended ⊢
                exact ended

theorem entryAt?_of_walk {store : Store} (ended : store.walk location names = .file place number) :
    store.entryAt? place = some (.file number) := by
  have ends := walk_ends store location names
  rw [ended] at ends
  cases ends with
  | file _ stands => exact stands

/-- A walk inward that ends at a file of a tree ended there before there were more directories. -/
theorem Deepens.walk_file_inward (deepens : Deepens before after) (tree : before.IsTree)
    (inward : ".." ∉ names) (ended : after.walk location names = .file place number) :
    before.walk location names = .file place number ∧ location <:+ place := by
  induction names generalizing location with
  | nil => cases ended
  | cons name rest ih =>
      rw [List.mem_cons, not_or] at inward
      rcases walk_cases name with skipped | outward | ⟨kept, inner, long⟩ | proper
      · simp only [walk, if_pos skipped] at ended ⊢
        exact ih inward.2 ended
      · exact absurd outward.symm inward.1
      · simp [walk, kept, inner, long] at ended
      · cases stands : after.entryAt? (name :: location) with
        | none =>
            obtain ⟨kept, inner, short⟩ := proper
            simp only [walk, if_neg kept, if_neg inner, if_neg short, stands] at ended
            split at ended <;> cases ended
        | some entry =>
            cases entry with
            | directory =>
                rw [walk_of_directory proper stands] at ended
                obtain ⟨earlier, within⟩ := ih inward.2 ended
                have file := entryAt?_of_walk earlier
                have entered : before.entryAt? (name :: location) = some .directory := by
                  refine tree.directory (by rw [file]; rfl) within ?_
                  rintro rfl
                  rw [(deepens.files _ number).mpr file] at stands
                  cases stands
                rw [walk_of_directory proper entered]
                exact ⟨earlier, (List.suffix_cons _ _).trans within⟩
            | file other =>
                obtain ⟨kept, inner, short⟩ := proper
                simp only [walk, if_neg kept, if_neg inner, if_neg short, stands,
                  (deepens.files _ other).mp stands] at ended ⊢
                refine ⟨ended, ?_⟩
                split at ended
                · obtain ⟨rfl, -⟩ := Reached.file.inj ended
                  exact List.suffix_cons _ _
                · cases ended

/-- Directories that are made do not change the file that a path leads to, if the path never leads
outward. -/
theorem Deepens.number?_inward (deepens : Deepens before after) (tree : before.IsTree)
    (inward : ".." ∉ path.names) : after.number? path = before.number? path := by
  apply Option.ext
  intro number
  rw [number?_eq_some_iff, number?_eq_some_iff]
  refine exists_congr fun place => ?_
  rw [reach, reach, deepens.workingDirectory]
  split
  · exact Iff.rfl
  · split
    · exact Iff.rfl
    · exact ⟨fun ended => (deepens.walk_file_inward tree inward ended).1, deepens.walk_file⟩

end Store

end JavaStructure
