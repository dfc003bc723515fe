/-
# What a step does to the files

One lemma for each request says what its answer means for the numbers of paths and
for the contents of numbers. A step gives a place another number (`Sets`), gives a
number another content (`Fills`), does both for a new file (`Creates`), or leaves all
of it as it was (`Alike`). Directories are only made, and only where nothing was
(`Deepens`).
-/

import JavaStructure.Proofs.Files.Places

namespace JavaStructure

/-- Whether a request only asks, or only takes time. -/
def Request.isQuiet : Request → Bool
  | .readText _ | .canonical _ | .isPresent _ | .isDirectory _ | .age _ | .now | .token
  | .pause _ => true
  | _ => false

/-- How many fresh numbers a request may use up. -/
def Request.draws : Request → Nat
  | .writeText _ _ | .createNew _ | .createTemporary _ | .token => 1
  | _ => 0

namespace Store

variable {store before middle after : Store} {path other source target : Path}
variable {location place : Location} {number handle elapsed : Nat} {content : Content}

/-- The files and the directories are the same. -/
structure Alike (before after : Store) : Prop where
  same : SameDirectories before after
  numberAt? : ∀ place, after.numberAt? place = before.numberAt? place
  holds? : ∀ number, after.holds? number = before.holds? number
  fresh : before.fresh ≤ after.fresh

/-- The place of a path has another number, or none. -/
structure Sets (before after : Store) (path : Path) (number : Option Nat) : Prop where
  same : SameDirectories before after
  placed : (before.place? path).isSome
  numberAt? : ∀ place, after.numberAt? place =
    if before.place? path = some place then number else before.numberAt? place
  holds? : ∀ number, after.holds? number = before.holds? number
  fresh : before.fresh ≤ after.fresh

/-- The file of a number holds something else. -/
structure Fills (before after : Store) (number : Nat) (content : Content) : Prop where
  same : SameDirectories before after
  numberAt? : ∀ place, after.numberAt? place = before.numberAt? place
  holds? : ∀ other, after.holds? other =
    if other = number then some content else before.holds? other
  fresh : before.fresh ≤ after.fresh

/-- A new empty file is at the place of a path, where nothing was. -/
structure Creates (before after : Store) (path : Path) (handle : Nat) : Prop where
  free : before.number? path = none
  steps : ∃ middle, Sets before middle path (some handle) ∧ Fills middle after handle (.text "")
  unused : before.fresh ≤ handle
  fresh : handle < after.fresh

/-- A file has another name, which may have been the name of another file. Nothing
happens where both are names of one file. -/
structure Renames (before after : Store) (source target : Path) : Prop where
  placed : (before.place? target).isSome
  steps : ∃ number, before.number? source = some number ∧
    ((before.number? target = some number ∧ Alike before after) ∨
      (before.place? source ≠ before.place? target ∧
        ∃ middle, Sets before middle source none ∧ Sets middle after target (some number)))

namespace SameDirectories

theorem place? (same : SameDirectories before after) (path : Path) :
    after.place? path = before.place? path :=
  (same.reach path).1

theorem number? (same : SameDirectories before after)
    (numbers : ∀ place, after.numberAt? place = before.numberAt? place) (path : Path) :
    after.number? path = before.number? path := by
  rw [Store.number?, Store.number?, same.place? path]
  exact Option.bind_congr fun place _ => numbers place

theorem isDirectory (same : SameDirectories before after) (path : Path) :
    after.isDirectory path = before.isDirectory path := by
  have read (store : Store) : store.isDirectory path = (store.reach path).directory?.isSome := by
    rw [Store.isDirectory]
    cases store.reach path <;> rfl
  rw [read, read, (same.reach path).2]

end SameDirectories

namespace Alike

theorem refl (store : Store) : Alike store store :=
  ⟨.refl store, fun _ => rfl, fun _ => rfl, Nat.le_refl _⟩

theorem number? (alike : Alike before after) (path : Path) :
    after.number? path = before.number? path :=
  alike.same.number? alike.numberAt? path

theorem content? (alike : Alike before after) (path : Path) :
    after.content? path = before.content? path := by
  rw [content?_eq, content?_eq, alike.number? path]
  exact Option.bind_congr fun number _ => alike.holds? number

theorem isNumbered (alike : Alike before after) (numbered : before.IsNumbered) :
    after.IsNumbered := by
  intro place number stands
  rw [alike.numberAt?] at stands
  exact Nat.lt_of_lt_of_le (numbered place number stands) alike.fresh

theorem trans (first : Alike before middle) (second : Alike middle after) : Alike before after where
  same := first.same.trans second.same
  numberAt? place := (second.numberAt? place).trans (first.numberAt? place)
  holds? number := (second.holds? number).trans (first.holds? number)
  fresh := Nat.le_trans first.fresh second.fresh

/-- What is alike before a change need not be told apart from what is changed. -/
theorem sets {value : Option Nat} (alike : Alike before middle)
    (sets : Sets middle after path value) : Sets before after path value where
  same := alike.same.trans sets.same
  placed := by rw [← alike.same.place? path]; exact sets.placed
  numberAt? place := by
    rw [sets.numberAt?, alike.same.place? path, alike.numberAt?]
  holds? number := (sets.holds? number).trans (alike.holds? number)
  fresh := Nat.le_trans alike.fresh sets.fresh

theorem fills (alike : Alike before middle) (fills : Fills middle after number content) :
    Fills before after number content where
  same := alike.same.trans fills.same
  numberAt? place := (fills.numberAt? place).trans (alike.numberAt? place)
  holds? other := by rw [fills.holds?, alike.holds?]
  fresh := Nat.le_trans alike.fresh fills.fresh

theorem creates (alike : Alike before middle) (creates : Creates middle after path handle) :
    Creates before after path handle where
  free := (alike.number? path).symm.trans creates.free
  steps := by
    obtain ⟨between, placed, filled⟩ := creates.steps
    exact ⟨between, alike.sets placed, filled⟩
  unused := Nat.le_trans alike.fresh creates.unused
  fresh := creates.fresh

theorem renames (alike : Alike before middle) (renames : Renames middle after source target) :
    Renames before after source target where
  placed := by rw [← alike.same.place? target]; exact renames.placed
  steps := by
    obtain ⟨number, named, ways⟩ := renames.steps
    refine ⟨number, (alike.number? source).symm.trans named, ?_⟩
    rw [← alike.number? target, ← alike.same.place? source, ← alike.same.place? target]
    refine ways.imp (And.imp_right alike.trans) (And.imp_right ?_)
    rintro ⟨between, dropped, placed⟩
    exact ⟨between, alike.sets dropped, placed⟩

end Alike

namespace Sets

variable {value : Option Nat}

theorem number? (sets : Sets before after path value) (other : Path) :
    after.number? other =
      if before.place? other = before.place? path then value else before.number? other := by
  obtain ⟨place, found⟩ := Option.isSome_iff_exists.mp sets.placed
  rw [Store.number?, Store.number?, sets.same.place? other]
  cases sought : before.place? other with
  | none => simp [found]
  | some elsewhere =>
      rw [Option.bind_some, Option.bind_some, sets.numberAt?]
      simp only [found, Option.some.injEq, eq_comm]

theorem isNumbered (sets : Sets before after path value) (numbered : before.IsNumbered)
    (bounded : ∀ number, value = some number → number < after.fresh) : after.IsNumbered := by
  intro place number stands
  rw [sets.numberAt?] at stands
  split at stands
  · exact bounded number stands
  · exact Nat.lt_of_lt_of_le (numbered place number stands) sets.fresh

/-- A path to another place leads to what it led to. -/
theorem number?_of_ne (sets : Sets before after path value)
    (apart : before.place? other ≠ before.place? path) :
    after.number? other = before.number? other := by
  rw [sets.number?, if_neg apart]

theorem content?_of_ne (sets : Sets before after path value)
    (apart : before.place? other ≠ before.place? path) :
    after.content? other = before.content? other := by
  rw [content?_eq, content?_eq, sets.number?_of_ne apart]
  exact Option.bind_congr fun number _ => sets.holds? number

end Sets

namespace Fills

theorem number? (fills : Fills before after number content) (path : Path) :
    after.number? path = before.number? path :=
  fills.same.number? fills.numberAt? path

theorem isNumbered (fills : Fills before after number content) (numbered : before.IsNumbered) :
    after.IsNumbered := by
  intro place number stands
  rw [fills.numberAt?] at stands
  exact Nat.lt_of_lt_of_le (numbered place number stands) fills.fresh

theorem content? (fills : Fills before after number content) (path : Path) :
    after.content? path =
      if before.number? path = some number then some content else before.content? path := by
  rw [content?_eq, content?_eq, fills.number?]
  cases named : before.number? path with
  | none => rfl
  | some other =>
      rw [Option.bind_some, Option.bind_some, fills.holds?]
      simp only [Option.some.injEq]

theorem alike (fills : Fills before middle number content) (alike : Alike middle after) :
    Fills before after number content where
  same := fills.same.trans alike.same
  numberAt? place := (alike.numberAt? place).trans (fills.numberAt? place)
  holds? other := (alike.holds? other).trans (fills.holds? other)
  fresh := Nat.le_trans fills.fresh alike.fresh

end Fills

namespace Creates

theorem same (creates : Creates before after path handle) : SameDirectories before after := by
  obtain ⟨middle, sets, fills⟩ := creates.steps
  exact sets.same.trans fills.same

theorem number? (creates : Creates before after path handle) (other : Path) :
    after.number? other =
      if before.place? other = before.place? path then some handle else before.number? other := by
  obtain ⟨middle, sets, fills⟩ := creates.steps
  rw [fills.number?, sets.number?]

theorem placed (creates : Creates before after path handle) : (before.place? path).isSome := by
  obtain ⟨middle, sets, _⟩ := creates.steps
  exact sets.placed

theorem holds? (creates : Creates before after path handle) (number : Nat) :
    after.holds? number = if number = handle then some (.text "") else before.holds? number := by
  obtain ⟨middle, sets, fills⟩ := creates.steps
  rw [fills.holds?, sets.holds?]

theorem isNumbered (creates : Creates before after path handle) (numbered : before.IsNumbered) :
    after.IsNumbered := by
  obtain ⟨middle, sets, fills⟩ := creates.steps
  intro place number stands
  rw [fills.numberAt?, sets.numberAt?] at stands
  split at stands
  · obtain rfl := Option.some.inj stands
    exact creates.fresh
  · exact Nat.lt_trans
      (Nat.lt_of_lt_of_le (numbered place number stands) creates.unused) creates.fresh

/-- The number of a new file is no other file's. -/
theorem number?_ne (creates : Creates before after path handle) (numbered : before.IsNumbered)
    (other : Path) : before.number? other ≠ some handle := fun named =>
  Nat.lt_irrefl _ (Nat.lt_of_lt_of_le (numbered.lt named) creates.unused)

theorem ne_of_lt (creates : Creates before after path handle) {number : Nat}
    (older : number < before.fresh) : number ≠ handle := by
  rintro rfl
  exact Nat.lt_irrefl _ (Nat.lt_of_lt_of_le older creates.unused)

theorem fresh_le (creates : Creates before after path handle) : before.fresh ≤ after.fresh :=
  calc before.fresh
    _ ≤ handle := creates.unused
    _ ≤ after.fresh := Nat.le_of_lt creates.fresh

end Creates

theorem numberAt?_put (store : Store) (location : Location) (number : Nat) (other : Location)
    (inner : location ≠ []) :
    (store.put location (.file number)).numberAt? other =
      if location = other then some number else store.numberAt? other := by
  rw [Store.numberAt?, entryAt?_put]
  by_cases here : other = []
  · subst here
    simp [inner, Store.numberAt?, entryAt?]
  · by_cases same : other = location
    · subst same
      simp [here]
    · simp [here, same, Ne.symm same, Store.numberAt?]

theorem numberAt?_drop (store : Store) (location other : Location) (inner : location ≠ []) :
    (store.drop location).numberAt? other =
      if location = other then none else store.numberAt? other := by
  rw [Store.numberAt?, entryAt?_drop]
  by_cases here : other = []
  · subst here
    simp [inner, Store.numberAt?, entryAt?]
  · by_cases same : other = location
    · subst same
      simp [here]
    · simp [here, same, Ne.symm same, Store.numberAt?]

/-- A file is put at a place where no directory is. -/
theorem put_sets (found : store.place? path = some location) (number : Nat) :
    Sets store (store.put location (.file number)) path (some number) where
  same := by
    refine ⟨rfl, fun other => ?_⟩
    rw [entryAt?_put]
    by_cases here : other = []
    · subst here
      simp [entryAt?]
    · by_cases same : other = location
      · subst same
        simp [here, entryAt?_of_place found]
      · simp [here, same]
  placed := by simp [found]
  numberAt? place := by
    rw [numberAt?_put _ _ _ _ (ne_nil_of_place found), found]
    simp
  holds? _ := rfl
  fresh := Nat.le_refl _

/-- A file is taken from a place. -/
theorem drop_sets (found : store.place? path = some location) :
    Sets store (store.drop location) path none where
  same := by
    refine ⟨rfl, fun other => ?_⟩
    rw [entryAt?_drop]
    by_cases here : other = []
    · subst here
      simp [entryAt?]
    · by_cases same : other = location
      · subst same
        simp [here, entryAt?_of_place found]
      · simp [here, same]
  placed := by simp [found]
  numberAt? place := by
    rw [numberAt?_drop _ _ _ (ne_nil_of_place found), found]
    simp
  holds? _ := rfl
  fresh := Nat.le_refl _

theorem fill_fills (store : Store) (number : Nat) (content : Content) :
    Fills store (store.fill number content) number content where
  same := ⟨rfl, fun _ => Iff.rfl⟩
  numberAt? _ := rfl
  holds? other := by
    rw [Store.holds?, file?_fill]
    split <;> simp [Store.holds?]
  fresh := Nat.le_refl _

/-- Only the clock and the next number are different. -/
theorem alike_of_eq (entries : after.entries = before.entries) (files : after.files = before.files)
    (workingDirectory : after.workingDirectory = before.workingDirectory)
    (fresh : before.fresh ≤ after.fresh) : Alike before after := by
  have entry (location : Location) : after.entryAt? location = before.entryAt? location := by
    cases location with
    | nil => rfl
    | cons name outer => simp only [entryAt?, entries]
  refine ⟨⟨workingDirectory, fun location => by rw [entry]⟩, fun place => ?_,
    fun number => ?_, fresh⟩
  · rw [Store.numberAt?, Store.numberAt?, entry]
  · simp only [Store.holds?, file?, files]

theorem pause_zero (store : Store) : store.pause 0 = store := by
  simp [pause]

theorem pause_pause (store : Store) (first second : Nat) :
    (store.pause first).pause second = store.pause (first + second) := by
  simp [pause, Int.add_assoc]

theorem pause_alike (store : Store) (elapsed : Nat) : Alike store (store.pause elapsed) :=
  alike_of_eq rfl rfl rfl (Nat.le_refl _)

/-- The answer to a request, and the store after it, some time after what was before. -/
def answerAfter (store : Store) (elapsed : Nat) (request : Request) : request.Answer × Store :=
  (store.pause elapsed).answerNow request

/-- A text is read exactly from a file that holds it. -/
theorem readText_eq_ok_iff {text : String} :
    store.readText path = .ok text ↔
      ∃ number, store.number? path = some number ∧ store.holds? number = some (.text text) := by
  cases named : store.number? path with
  | some number =>
      obtain ⟨place, reached⟩ := number?_eq_some_iff.mp named
      rw [readText, reached]
      cases held : store.file? number with
      | none => simp [Store.holds?, held]
      | some file =>
          obtain ⟨content, modified⟩ := file
          cases content <;> simp [Store.holds?, held]
  | none =>
      have leads (place : Location) (number : Nat) : store.reach path ≠ .file place number := by
        intro reached
        rw [number?_eq_some_iff.mpr ⟨place, reached⟩] at named
        cases named
      rw [readText]
      split <;> simp_all

/-- Of a path that leads nowhere, nothing is known to be there. -/
theorem content?_of_missing (missing : store.readText path = .error .missing) :
    store.content? path = none := by
  rw [content?]
  split
  · next place number reached =>
      rw [readText, reached] at missing
      dsimp only at missing
      split at missing <;> cases missing
  · rfl

theorem createNew_created (created : store.createNew path = (.created handle, after)) :
    Creates store after path handle := by
  rw [createNew] at created
  split at created
  case h_3 place reached =>
      obtain ⟨found, free⟩ := reach_eq_vacant_iff.mp reached
      obtain ⟨rfl, rfl⟩ : store.fresh = handle ∧ _ = after := by
        simpa [create] using created
      refine ⟨free, ⟨_, put_sets found store.fresh, ?_⟩, Nat.le_refl _, Nat.lt_succ_self _⟩
      exact (fill_fills _ _ _).alike (alike_of_eq rfl rfl rfl (Nat.le_succ _))
  all_goals simp at created

/-- Where no file is created, nothing changes. -/
theorem createNew_of_ne {answer : Creation} (answered : store.createNew path = (answer, after))
    (other : ∀ handle, answer ≠ .created handle) : after = store := by
  rw [createNew] at answered
  split at answered
  case h_3 place reached =>
      obtain ⟨rfl, -⟩ := Prod.mk.inj answered
      exact absurd rfl (other _)
  all_goals exact (Prod.mk.inj answered).2.symm

section Answers

variable {request : Request}

theorem answerAfter_quiet (store : Store) (elapsed : Nat) (quiet : request.isQuiet = true) :
    Alike store (store.answerAfter elapsed request).2 := by
  have paused := pause_alike store elapsed
  cases request with
  | pause nanoseconds => exact paused.trans (pause_alike _ nanoseconds)
  | token => exact paused.trans (alike_of_eq rfl rfl rfl (Nat.le_succ _))
  | readText | canonical | isPresent | isDirectory | age | now => exact paused
  | _ => simp [Request.isQuiet] at quiet

theorem creates_of_created
    (answered : store.answerAfter elapsed (.createNew path) = (.created handle, after)) :
    Creates store after path handle :=
  (pause_alike store elapsed).creates (createNew_created answered)

theorem alike_of_not_created {answer : Creation}
    (answered : store.answerAfter elapsed (.createNew path) = (answer, after))
    (other : ∀ handle, answer ≠ .created handle) : Alike store after := by
  rw [createNew_of_ne answered other]
  exact pause_alike store elapsed

/-- A temporary file has a name that no other file has, and that only numbers are
told apart by. -/
theorem creates_of_createTemporary {directory temporary : Path}
    (answered : store.answerAfter elapsed (.createTemporary directory) =
      (some (temporary, handle), after)) :
    Creates store after temporary handle ∧
      ∃ count, temporary = directory.join (".tmp" ++ Text.decimal count) := by
  have paused := pause_alike store elapsed
  simp only [answerAfter, answerNow, createTemporary] at answered
  split at answered
  case h_1 number left created =>
      obtain ⟨same, rfl⟩ := Prod.mk.inj answered
      obtain ⟨rfl, rfl⟩ := Prod.mk.inj (Option.some.inj same)
      exact ⟨paused.creates (createNew_created created), _, rfl⟩
  case h_2 => simp at answered

theorem alike_of_no_temporary {directory : Path}
    (answered : store.answerAfter elapsed (.createTemporary directory) = (none, after)) :
    Alike store after := by
  have paused := pause_alike store elapsed
  simp only [answerAfter, answerNow, createTemporary] at answered
  split at answered
  case h_1 => simp at answered
  case h_2 answer left other created =>
      obtain ⟨-, rfl⟩ := Prod.mk.inj answered
      have unchanged : left = store.pause elapsed :=
        createNew_of_ne created other
      rw [unchanged]
      exact paused

theorem fills_of_written {text : String}
    (answered : store.answerAfter elapsed (.writeHandle number text) = (true, after)) :
    ∃ content, store.holds? number = some content ∧
      Fills store after number (content.append text) := by
  have paused := pause_alike store elapsed
  simp only [answerAfter, answerNow, writeHandle] at answered
  split at answered
  case h_1 file held =>
      obtain ⟨-, rfl⟩ := Prod.mk.inj answered
      have read : store.holds? number = some file.content := by
        rw [← paused.holds?, Store.holds?, held]
        rfl
      exact ⟨file.content, read, paused.fills (fill_fills _ _ _)⟩
  case h_2 => simp at answered

theorem alike_of_not_written {text : String}
    (answered : store.answerAfter elapsed (.writeHandle number text) = (false, after)) :
    Alike store after ∧ store.holds? number = none := by
  have paused := pause_alike store elapsed
  simp only [answerAfter, answerNow, writeHandle] at answered
  split at answered
  case h_1 => simp at answered
  case h_2 unheld =>
      obtain ⟨-, rfl⟩ := Prod.mk.inj answered
      refine ⟨paused, ?_⟩
      rw [← paused.holds?, Store.holds?, unheld]
      rfl

theorem renames_of_renamed
    (answered : store.answerAfter elapsed (.rename source target) = (true, after)) :
    Renames store after source target := by
  apply (pause_alike store elapsed).renames
  simp only [answerAfter, answerNow] at answered
  generalize store.pause elapsed = store at answered
  rw [rename] at answered
  split at answered
  case h_1 old number new other reachedSource reachedTarget =>
      have foundSource : store.place? source = some old := by
        simp [place?, reachedSource, Reached.place?]
      have foundTarget : store.place? target = some new := by
        simp [place?, reachedTarget, Reached.place?]
      have namedSource := number?_eq_some_iff.mpr ⟨old, reachedSource⟩
      have namedTarget := number?_eq_some_iff.mpr ⟨new, reachedTarget⟩
      refine ⟨by simp [foundTarget], number, namedSource, ?_⟩
      split at answered
      · next same =>
          obtain ⟨-, rfl⟩ := Prod.mk.inj answered
          exact .inl ⟨by rw [namedTarget, same], .refl store⟩
      · next differ =>
          obtain ⟨-, rfl⟩ := Prod.mk.inj answered
          have apart : store.place? source ≠ store.place? target := by
            intro same
            rw [Store.number?, same] at namedSource
            exact differ (Option.some.inj (namedSource.symm.trans namedTarget))
          have dropped := drop_sets foundSource
          refine .inr ⟨apart, _, dropped, put_sets ?_ number⟩
          rw [dropped.same.place?, foundTarget]
  case h_2 old number new reachedSource reachedTarget =>
      have foundSource : store.place? source = some old := by
        simp [place?, reachedSource, Reached.place?]
      obtain ⟨foundTarget, freeTarget⟩ := reach_eq_vacant_iff.mp reachedTarget
      have namedSource := number?_eq_some_iff.mpr ⟨old, reachedSource⟩
      obtain ⟨-, rfl⟩ := Prod.mk.inj answered
      have apart : store.place? source ≠ store.place? target := by
        intro same
        rw [Store.number?, same] at namedSource
        exact Option.some_ne_none number (namedSource.symm.trans freeTarget)
      have dropped := drop_sets foundSource
      refine ⟨by simp [foundTarget], number, namedSource,
        .inr ⟨apart, _, dropped, put_sets ?_ number⟩⟩
      rw [dropped.same.place?, foundTarget]
  case h_3 => simp at answered

theorem alike_of_not_renamed
    (answered : store.answerAfter elapsed (.rename source target) = (false, after)) :
    Alike store after ∧ (store.number? source = none ∨ store.place? target = none) := by
  have paused := pause_alike store elapsed
  simp only [answerAfter, answerNow] at answered
  rw [← paused.number? source, ← paused.same.place? target]
  refine (fun stays => ⟨paused.trans stays.1, stays.2⟩ :
    Alike (store.pause elapsed) after ∧ _ → _) ?_
  generalize store.pause elapsed = store at answered
  rw [rename] at answered
  split at answered
  case h_1 => split at answered <;> simp at answered
  case h_2 => simp at answered
  case h_3 bothFiles toVacant =>
      obtain ⟨-, rfl⟩ := Prod.mk.inj answered
      refine ⟨.refl store, ?_⟩
      cases namedSource : store.number? source with
      | none => exact .inl rfl
      | some number =>
          obtain ⟨old, reachedSource⟩ := number?_eq_some_iff.mp namedSource
          cases foundTarget : store.place? target with
          | none => exact .inr rfl
          | some new =>
              obtain ⟨_, ⟨other, reachedTarget, _⟩ | ⟨reachedTarget, _⟩⟩ :=
                reach_of_place foundTarget
              · exact absurd reachedTarget (bothFiles old number new other reachedSource)
              · exact absurd reachedTarget (toVacant old number new reachedSource)

theorem sets_of_linked
    (answered : store.answerAfter elapsed (.link source target) = (true, after)) :
    store.number? target = none ∧
      ∃ number, store.number? source = some number ∧ Sets store after target (some number) := by
  have paused := pause_alike store elapsed
  simp only [answerAfter, answerNow, link] at answered
  split at answered
  case h_1 old number new reachedSource reachedTarget =>
      obtain ⟨foundTarget, freeTarget⟩ := reach_eq_vacant_iff.mp reachedTarget
      have namedSource := number?_eq_some_iff.mpr ⟨old, reachedSource⟩
      obtain ⟨-, rfl⟩ := Prod.mk.inj answered
      rw [paused.number?] at freeTarget namedSource
      exact ⟨freeTarget, number, namedSource, paused.sets (put_sets foundTarget number)⟩
  case h_2 => simp at answered

theorem alike_of_not_linked
    (answered : store.answerAfter elapsed (.link source target) = (false, after)) :
    Alike store after := by
  simp only [answerAfter, answerNow, link] at answered
  split at answered
  case h_1 => simp at answered
  case h_2 =>
      obtain ⟨-, rfl⟩ := Prod.mk.inj answered
      exact pause_alike store elapsed

theorem sets_of_removed
    (answered : store.answerAfter elapsed (.remove path) = (true, after)) :
    Sets store after path none := by
  have paused := pause_alike store elapsed
  simp only [answerAfter, answerNow, remove] at answered
  split at answered
  case h_1 place number reached =>
      obtain ⟨-, rfl⟩ := Prod.mk.inj answered
      exact paused.sets (drop_sets (by simp [place?, reached, Reached.place?]))
  case h_2 => simp at answered

theorem alike_of_not_removed
    (answered : store.answerAfter elapsed (.remove path) = (false, after)) :
    Alike store after ∧ store.number? path = none := by
  have paused := pause_alike store elapsed
  simp only [answerAfter, answerNow, remove] at answered
  split at answered
  case h_1 => simp at answered
  case h_2 leads =>
      obtain ⟨-, rfl⟩ := Prod.mk.inj answered
      refine ⟨paused, ?_⟩
      rw [← paused.number?]
      cases named : (store.pause elapsed).number? path with
      | none => rfl
      | some number =>
          obtain ⟨place, reached⟩ := number?_eq_some_iff.mp named
          exact absurd reached (leads place number)

/-- What is read as text some time later is what the file held before. -/
theorem answerAfter_readText_ok {text : String}
    (answered : store.answerAfter elapsed (.readText path) = (.ok text, after)) :
    ∃ number, store.number? path = some number ∧ store.holds? number = some (.text text) := by
  have paused := pause_alike store elapsed
  obtain ⟨number, named, held⟩ := readText_eq_ok_iff.mp (congrArg Prod.fst answered)
  exact ⟨number, (paused.number? path).symm.trans named, (paused.holds? number).symm.trans held⟩

end Answers

theorem fresh_createNew_le (store : Store) (path : Path) :
    (store.createNew path).2.fresh ≤ store.fresh + 1 := by
  rw [createNew]
  split <;> simp [create]

theorem fresh_makeDirectories (store : Store) (path : Path) :
    (store.makeDirectories path).2.fresh = store.fresh := by
  have upTo (depth : Nat) (path : Path) :
      (store.makeDirectoriesUpTo path depth).2.fresh = store.fresh := by
    induction depth generalizing path with
    | zero => rfl
    | succ depth ih =>
        rw [makeDirectoriesUpTo]
        split
        · rfl
        · split
          · rfl
          · rfl
          · split
            · rfl
            · next parent _ =>
                have outer := ih parent
                revert outer
                generalize store.makeDirectoriesUpTo parent depth = reached
                obtain ⟨made, left⟩ := reached
                rintro outer
                cases made with
                | false => exact outer
                | true =>
                    dsimp only
                    split <;> exact outer
          · rfl
  exact upTo _ path

theorem fresh_answerAfter_le (store : Store) (elapsed : Nat) (request : Request) :
    (store.answerAfter elapsed request).2.fresh ≤ store.fresh + request.draws := by
  have same : (store.pause elapsed).fresh = store.fresh := rfl
  rw [answerAfter, ← same]
  generalize store.pause elapsed = store
  cases request with
  | readText | canonical | isPresent | isDirectory | age | now | token | pause =>
      exact Nat.le_refl _
  | makeDirectories path => exact Nat.le_of_eq (fresh_makeDirectories store path)
  | createNew path => exact fresh_createNew_le store path
  | createTemporary directory =>
      have drawn := fresh_createNew_le store (directory.join (".tmp" ++ Text.decimal store.fresh))
      rw [answerNow, createTemporary]
      revert drawn
      generalize store.createNew (directory.join (".tmp" ++ Text.decimal store.fresh)) = reached
      obtain ⟨answer, left⟩ := reached
      cases answer <;> exact id
  | writeText path text =>
      rw [answerNow, write]
      split <;> simp [fill, create, Request.draws]
  | writeHandle handle text =>
      rw [answerNow, writeHandle]
      split <;> exact Nat.le_refl _
  | rename source target =>
      rw [answerNow, rename]
      split
      · split <;> exact Nat.le_refl _
      · exact Nat.le_refl _
      · exact Nat.le_refl _
  | link source target =>
      rw [answerNow, link]
      split <;> exact Nat.le_refl _
  | remove path =>
      rw [answerNow, remove]
      split <;> exact Nat.le_refl _

theorem fresh_le_of_answered {request : Request} {answer : request.Answer}
    (answered : store.answerAfter elapsed request = (answer, after)) :
    after.fresh ≤ store.fresh + request.draws := by
  have spent := fresh_answerAfter_le store elapsed request
  rwa [answered] at spent

end Store

end JavaStructure
