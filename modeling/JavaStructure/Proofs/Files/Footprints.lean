/-
# Footprints of programs

Any step of a program may be refused, for reasons that are none of the program's: permissions, a
full disk, a file that is no text. What a program can change of a store is then read off its
requests: files at the places that it writes to, new files, and directories on the ways that it has
made. All else is as it was, however the program ends.
-/

import JavaStructure.Proofs.Files.Endings
import JavaStructure.Proofs.Files.MakingDirectories

namespace JavaStructure

open Store

/-- Whether a step can be refused. Where something is, and what time it is, is always told. -/
def Request.IsRefusable : Request → Prop
  | .canonical _ | .isPresent _ | .isDirectory _ | .now | .token | .pause _ => False
  | _ => True

/-- The steps that may be refused, and those that always are. -/
structure Faults where
  may : Request → Prop
  barred : Request → Prop
  refusable : ∀ request, barred request → request.IsRefusable

/-- No step is refused. -/
def Faults.none : Faults :=
  ⟨fun _ => False, fun _ => False, nofun⟩

/-- Any step may be refused. -/
def Faults.any : Faults :=
  ⟨fun _ => True, fun _ => False, nofun⟩

/-- A step that may be refused, or always is. -/
def Faults.Strikes (faults : Faults) (request : Request) : Prop :=
  faults.may request ∨ faults.barred request

theorem Faults.not_none_strikes {request : Request} : ¬Faults.none.Strikes request := by
  rintro (never | never) <;> exact never

/-- The answers of a store that refuses a step, and what is left then. Directories may have been
made in part, and a file may have been written in part; else only time has passed. -/
def Refuses (store : Store) : (request : Request) → request.Answer → Store → Prop
  | .readText _, read, after => read = .error .unreadable ∧ ∃ elapsed, after = store.pause elapsed
  | .makeDirectories path, made, after =>
      made = false ∧ DeepensAlong (· ∈ store.way path) store after
  | .writeText path _, written, after => written = false ∧
      ((∃ elapsed, after = store.pause elapsed) ∨
        ∃ elapsed content, (store.pause elapsed).write path content = (true, after))
  | .createNew _, creation, after => creation = .refused ∧ ∃ elapsed, after = store.pause elapsed
  | .writeHandle handle _, written, after => written = false ∧
      ((∃ elapsed, after = store.pause elapsed) ∨
        ∃ elapsed content, after = (store.pause elapsed).fill handle content)
  | .createTemporary _, made, after => made = none ∧ ∃ elapsed, after = store.pause elapsed
  | .rename _ _, renamed, after => renamed = false ∧ ∃ elapsed, after = store.pause elapsed
  | .link _ _, linked, after => linked = false ∧ ∃ elapsed, after = store.pause elapsed
  | .remove _, removed, after => removed = false ∧ ∃ elapsed, after = store.pause elapsed
  | .age _, age?, after => age? = none ∧ ∃ elapsed, after = store.pause elapsed
  | _, _, _ => False

/-- The answers of a store that refuses some steps. Any time may pass before a step. -/
def Faulty (faults : Faults) : Answering := fun store request answer after =>
  (¬faults.barred request ∧ ∃ elapsed, store.answerAfter elapsed request = (answer, after)) ∨
    (faults.Strikes request ∧ Refuses store request answer after)

/-- The answer to a request that is refused with nothing done in part, if it can be refused. -/
def Store.refuse (store : Store) : (request : Request) → request.Answer × Store
  | .readText _ => (.error .unreadable, store)
  | .makeDirectories _ => (false, store)
  | .writeText _ _ => (false, store)
  | .createNew _ => (.refused, store)
  | .writeHandle _ _ => (false, store)
  | .createTemporary _ => (none, store)
  | .rename _ _ => (false, store)
  | .link _ _ => (false, store)
  | .remove _ => (false, store)
  | .age _ => (none, store)
  | request => store.answer request

/-- The answer to a request in a store that refuses some. -/
def Store.answerWithout (refused : Request → Bool) (store : Store) (request : Request) :
    request.Answer × Store :=
  if refused request then store.refuse request else store.answer request

theorem Faulty.of_answerWithout {faults : Faults} {refused : Request → Bool} {request : Request}
    (strikes : refused request = true → faults.Strikes request)
    (spares : faults.barred request → refused request = true) (store : Store) :
    Faulty faults store request (store.answerWithout refused request).1
      (store.answerWithout refused request).2 := by
  rw [answerWithout]
  split
  · next struck =>
      have paused : ∃ elapsed, store = store.pause elapsed := ⟨0, (pause_zero store).symm⟩
      cases request with
      | readText | createNew | createTemporary | rename | link | remove | age =>
          exact .inr ⟨strikes struck, rfl, paused⟩
      | makeDirectories => exact .inr ⟨strikes struck, rfl, .refl _ _⟩
      | writeText | writeHandle => exact .inr ⟨strikes struck, rfl, .inl paused⟩
      | canonical | isPresent | isDirectory | now | token | pause =>
          exact .inl ⟨faults.refusable _, 1, rfl⟩
  · next unstruck => exact .inl ⟨mt spares unstruck, 1, rfl⟩

namespace Program

variable {α : Type}

/-- Run a program on a store that refuses some steps. -/
def runWithout (refused : Request → Bool) : Program α → Store → α × Store
  | .done value, store => (value, store)
  | .ask request next, store =>
      let (answer, store) := store.answerWithout refused request
      (next answer).runWithout refused store

/-- Such a run is one of the endings. -/
theorem ends_runWithout {faults : Faults} {refused : Request → Bool}
    (strikes : ∀ request, refused request = true → faults.Strikes request)
    (spares : ∀ request, faults.barred request → refused request = true) (program : Program α)
    (store : Store) :
    program.Ends (Faulty faults) store (program.runWithout refused store).1
      (program.runWithout refused store).2 := by
  induction program generalizing store with
  | done value => exact ⟨rfl, rfl⟩
  | ask request next ih =>
      exact ⟨_, _, .of_answerWithout (strikes request) (spares request) store, ih _ _⟩

/-- Whatever steps are refused, a program comes to an end. -/
theorem exists_ends (faults : Faults) (program : Program α) (store : Store) :
    ∃ result after, program.Ends (Faulty faults) store result after := by
  classical
  let refused (request : Request) : Bool := decide (faults.barred request)
  have strikes (request : Request) (struck : refused request = true) : faults.Strikes request :=
    .inr (of_decide_eq_true struck)
  have spares (request : Request) (barred : faults.barred request) : refused request = true :=
    decide_eq_true barred
  exact ⟨_, _, ends_runWithout strikes spares program store⟩

end Program

namespace Store

variable {before middle after : Store} {spots ways : Location → Prop} {loose : Nat → Prop}
variable {path source target : Path} {handle : Nat} {content : Content} {faults : Faults}

/-- The files at some places may be others, those of some numbers may hold something else, and
there may be directories on some ways. All else is the same, and the files are numbered still. -/
structure ChangesOnly (spots : Location → Prop) (loose : Nat → Prop) (ways : Location → Prop)
    (before after : Store) : Prop where
  workingDirectory : after.workingDirectory = before.workingDirectory
  numberAt? : ∀ place, ¬spots place → after.numberAt? place = before.numberAt? place
  held : ∀ number, number < before.fresh → ¬loose number →
    after.holds? number = before.holds? number
  kept : ∀ place, before.entryAt? place = some .directory → after.entryAt? place = some .directory
  made : ∀ place, after.entryAt? place = some .directory →
    before.entryAt? place = some .directory ∨ ways place
  fresh : before.fresh ≤ after.fresh
  isNumbered : before.IsNumbered → after.IsNumbered

namespace ChangesOnly

theorem refl (spots : Location → Prop) (loose : Nat → Prop) (ways : Location → Prop)
    (store : Store) : ChangesOnly spots loose ways store store :=
  ⟨rfl, fun _ _ => rfl, fun _ _ _ => rfl, fun _ => id, fun _ => .inl, Nat.le_refl _, id⟩

theorem trans (first : ChangesOnly spots loose ways before middle)
    (second : ChangesOnly spots loose ways middle after) :
    ChangesOnly spots loose ways before after where
  workingDirectory := second.workingDirectory.trans first.workingDirectory
  numberAt? place other := (second.numberAt? place other).trans (first.numberAt? place other)
  held number older other :=
    (second.held number (Nat.lt_of_lt_of_le older first.fresh) other).trans
      (first.held number older other)
  kept place stands := second.kept place (first.kept place stands)
  made place stands := (second.made place stands).elim (first.made place) .inr
  fresh := Nat.le_trans first.fresh second.fresh
  isNumbered := second.isNumbered ∘ first.isNumbered

/-- Directories that are the same are neither lost nor made. -/
theorem of_same (same : SameDirectories before after)
    (numberAt? : ∀ place, ¬spots place → after.numberAt? place = before.numberAt? place)
    (held : ∀ number, number < before.fresh → ¬loose number →
      after.holds? number = before.holds? number)
    (fresh : before.fresh ≤ after.fresh) (isNumbered : before.IsNumbered → after.IsNumbered) :
    ChangesOnly spots loose ways before after where
  workingDirectory := same.workingDirectory
  numberAt? := numberAt?
  held := held
  kept place := (same.directory_iff place).mpr
  made place stands := .inl ((same.directory_iff place).mp stands)
  fresh := fresh
  isNumbered := isNumbered

theorem of_alike (alike : Alike before after) : ChangesOnly spots loose ways before after :=
  of_same alike.same (fun place _ => alike.numberAt? place) (fun number _ _ => alike.holds? number)
    alike.fresh alike.isNumbered

theorem of_pause (store : Store) (elapsed : Nat) :
    ChangesOnly spots loose ways store (store.pause elapsed) :=
  of_alike (pause_alike store elapsed)

theorem of_deepensAlong (deepens : DeepensAlong ways before after) :
    ChangesOnly spots loose ways before after where
  workingDirectory := deepens.workingDirectory
  numberAt? place _ := deepens.toDeepens.numberAt? place
  held number _ _ := deepens.holds? number
  kept := deepens.directories
  made := deepens.made
  fresh := deepens.fresh
  isNumbered := deepens.toDeepens.isNumbered

/-- A file that is taken from the place of a path, or put there, is nowhere else. -/
theorem numberAt?_of_sets {value : Option Nat} {place : Location}
    (sets : Sets before after path value) (inside : spots (before.location path))
    (other : ¬spots place) : after.numberAt? place = before.numberAt? place := by
  rw [sets.numberAt?, if_neg]
  intro found
  exact other (location_of_place? found ▸ inside)

/-- A file is taken from the place of a path, or put there. -/
theorem of_sets {value : Option Nat} (sets : Sets before after path value)
    (inside : spots (before.location path))
    (known : ∀ number, value = some number → ∃ other, before.number? other = some number) :
    ChangesOnly spots loose ways before after := by
  refine of_same sets.same (fun place => numberAt?_of_sets sets inside)
    (fun number _ _ => sets.holds? number) sets.fresh
    fun numbered => sets.isNumbered numbered fun number same => ?_
  obtain ⟨other, named⟩ := known number same
  exact Nat.lt_of_lt_of_le (numbered.lt named) sets.fresh

/-- A new file is put at the place of a path, and is written. -/
theorem of_new (sets : Sets before middle path (some handle))
    (fills : Fills middle after handle content) (unused : before.fresh ≤ handle)
    (fresh : handle < after.fresh) (inside : spots (before.location path)) :
    ChangesOnly spots loose ways before after := by
  have grown := Nat.le_trans unused (Nat.le_of_lt fresh)
  refine of_same (sets.same.trans fills.same) (fun place other => ?_) (fun number older _ => ?_)
    grown fun numbered place number stands => ?_
  · exact (fills.numberAt? place).trans (numberAt?_of_sets sets inside other)
  · rw [fills.holds?, sets.holds?, if_neg]
    exact Nat.ne_of_lt (Nat.lt_of_lt_of_le older unused)
  · rw [fills.numberAt?, sets.numberAt?] at stands
    split at stands
    · obtain rfl := Option.some.inj stands
      exact fresh
    · exact Nat.lt_of_lt_of_le (numbered place number stands) grown

/-- A new file is made at the place of a path. -/
theorem of_creates (creates : Creates before after path handle)
    (inside : spots (before.location path)) : ChangesOnly spots loose ways before after := by
  obtain ⟨middle, sets, fills⟩ := creates.steps
  exact of_new sets fills creates.unused creates.fresh inside

/-- A file is written that was made since, or whose content does not matter. -/
theorem fills (changes : ChangesOnly spots loose ways before middle)
    (fills : Fills middle after handle content) (young : before.fresh ≤ handle ∨ loose handle) :
    ChangesOnly spots loose ways before after := by
  refine ⟨fills.same.workingDirectory.trans changes.workingDirectory, fun place other => ?_,
    fun number older other => ?_, fun place stands => ?_, fun place stands => ?_,
    Nat.le_trans changes.fresh fills.fresh, fills.isNumbered ∘ changes.isNumbered⟩
  · exact (fills.numberAt? place).trans (changes.numberAt? place other)
  · rw [fills.holds?, if_neg, changes.held number older other]
    rintro rfl
    obtain newer | free := young
    · exact Nat.lt_irrefl _ (Nat.lt_of_lt_of_le older newer)
    · exact other free
  · exact (fills.same.directory_iff place).mpr (changes.kept place stands)
  · exact changes.made place ((fills.same.directory_iff place).mp stands)

/-- A file is given another name. -/
theorem of_renames (renames : Renames before after source target)
    (fromInside : spots (before.location source)) (toInside : spots (before.location target)) :
    ChangesOnly spots loose ways before after := by
  obtain ⟨number, named, ⟨-, alike⟩ | ⟨-, middle, dropped, set⟩⟩ := renames.steps
  · exact of_alike alike
  · rw [← location_congr dropped.same.workingDirectory] at toInside
    have fresh := Nat.le_trans dropped.fresh set.fresh
    refine of_same (dropped.same.trans set.same) (fun place other => ?_) (fun other _ _ => ?_) fresh
      fun numbered => set.isNumbered (dropped.isNumbered numbered nofun) ?_
    · exact (numberAt?_of_sets set toInside other).trans
        (numberAt?_of_sets dropped fromInside other)
    · exact (set.holds? other).trans (dropped.holds? other)
    · rintro _ ⟨⟩
      exact Nat.lt_of_lt_of_le (numbered.lt named) fresh

end ChangesOnly

end Store

/-- Whether a request only touches paths of one kind, and only makes the directories of paths of
another. Files are written through handles that are not below a bound, and temporary files are
called by numbers that are not. -/
def Request.IsWithin (spot deep : Path → Prop) (bound : Nat) : Request → Prop
  | .makeDirectories path => deep path
  | .writeText _ _ => False
  | .createNew path => spot path
  | .writeHandle handle _ => bound ≤ handle
  | .createTemporary directory =>
      ∀ number, bound ≤ number → spot (directory.join (".tmp" ++ Text.decimal number))
  | .rename source target => spot source ∧ spot target
  | .link source target => spot source ∧ spot target
  | .remove path => spot path
  | _ => True

/-- Whether what is drawn for an answer was drawn from a bound on. -/
def Request.DrawsFrom (bound : Nat) : (request : Request) → request.Answer → Prop
  | .createNew _, creation => ∀ handle, creation = .created handle → bound ≤ handle
  | .createTemporary directory, made => ∀ path handle, made = some (path, handle) →
      bound ≤ handle ∧
        ∃ number, bound ≤ number ∧ path = directory.join (".tmp" ++ Text.decimal number)
  | .token, text => ∃ drawn : Store, bound ≤ drawn.fresh ∧ text = drawn.token.1
  | _, _ => True

namespace Program

variable {α β : Type} {spot deep : Path → Prop} {bound : Nat} {faults : Faults}
variable {base store after : Store}

/-- Whether all requests of a program are of that kind, whatever it is answered, and it ends with a
value of some kind. -/
def IsWithin (spot deep : Path → Prop) (bound : Nat) (post : α → Prop) : Program α → Prop
  | .done value => post value
  | .ask request next => request.IsWithin spot deep bound ∧
      ∀ answer, request.DrawsFrom bound answer → (next answer).IsWithin spot deep bound post

theorem isWithin_bind {first : Program α} {next : α → Program β} {middle : α → Prop}
    {post : β → Prop} (within : first.IsWithin spot deep bound middle)
    (withinNext : ∀ value, middle value → (next value).IsWithin spot deep bound post) :
    (first >>= next).IsWithin spot deep bound post := by
  induction first with
  | done value => exact withinNext value within
  | ask request rest ih =>
      exact ⟨within.1, fun answer drawn => ih answer (within.2 answer drawn)⟩

/-- A step in front of a program. -/
theorem isWithin_ask {request : Request} {next : request.Answer → Program α} {post : α → Prop}
    (within : request.IsWithin spot deep bound)
    (withinNext : ∀ answer, request.DrawsFrom bound answer →
      (next answer).IsWithin spot deep bound post) :
    (step request >>= next).IsWithin spot deep bound post :=
  ⟨within, withinNext⟩

theorem isWithin_discard {request : Request} (within : request.IsWithin spot deep bound) :
    (discard (step request)).IsWithin spot deep bound fun _ => True :=
  ⟨within, fun _ _ => trivial⟩

/-- What changes when only paths of one kind are touched, and only the directories of paths of
another are made. -/
def Touches (spot deep : Path → Prop) (before after : Store) : Prop :=
  ChangesOnly (fun place => ∃ path, spot path ∧ before.location path = place) (fun _ => False)
    (fun place => ∃ path, deep path ∧ place ∈ before.way path) before after

theorem temporary_eq {directory temporary : Path} {handle elapsed : Nat}
    (answered : store.answerAfter elapsed (.createTemporary directory) =
      (some (temporary, handle), after)) :
    temporary = directory.join (".tmp" ++ Text.decimal store.fresh) := by
  simp only [answerAfter, answerNow, createTemporary] at answered
  split at answered
  · exact (Prod.mk.inj (Option.some.inj (Prod.mk.inj answered).1)).1.symm
  · cases (Prod.mk.inj answered).1

theorem Touches.pause (touches : Touches spot deep base store) (elapsed : Nat) :
    Touches spot deep base (store.pause elapsed) :=
  ChangesOnly.trans touches (.of_pause store elapsed)

theorem Touches.alike (touches : Touches spot deep base store) (alike : Alike store after) :
    Touches spot deep base after :=
  ChangesOnly.trans touches (.of_alike alike)

/-- Directories are made on the way of a path for which they may be. -/
theorem Touches.deepens {path : Path} (touches : Touches spot deep base store) (made : deep path)
    (deepens : DeepensAlong (· ∈ store.way path) store after) : Touches spot deep base after := by
  refine ChangesOnly.trans touches (.of_deepensAlong (deepens.mono fun place inside => ?_))
  exact ⟨path, made, way_congr touches.workingDirectory path ▸ inside⟩

/-- A path that may be touched names a place that may be. -/
theorem Touches.located {path : Path} (touches : Touches spot deep base store)
    (touched : spot path) : ∃ other, spot other ∧ base.location other = store.location path :=
  ⟨path, touched, (location_congr touches.workingDirectory path).symm⟩

/-- A request within bounds that is refused keeps them, and nothing is drawn for it. -/
theorem touches_of_refused {request : Request} {answer : request.Answer}
    (within : request.IsWithin spot deep base.fresh) (touches : Touches spot deep base store)
    (refused : Refuses store request answer after) :
    Touches spot deep base after ∧ request.DrawsFrom base.fresh answer := by
  cases request with
  | readText | age | rename | link | remove =>
      obtain ⟨-, elapsed, rfl⟩ := refused
      exact ⟨touches.pause elapsed, trivial⟩
  | createNew =>
      obtain ⟨rfl, elapsed, rfl⟩ := refused
      exact ⟨touches.pause elapsed, by rintro _ ⟨⟩⟩
  | createTemporary =>
      obtain ⟨rfl, elapsed, rfl⟩ := refused
      exact ⟨touches.pause elapsed, by rintro _ _ ⟨⟩⟩
  | makeDirectories path =>
      obtain ⟨-, deepens⟩ := refused
      exact ⟨touches.deepens within deepens, trivial⟩
  | writeText path text => exact within.elim
  | writeHandle handle text =>
      obtain ⟨-, ⟨elapsed, rfl⟩ | ⟨elapsed, content, rfl⟩⟩ := refused
      · exact ⟨touches.pause elapsed, trivial⟩
      · refine ⟨?_, trivial⟩
        exact ChangesOnly.fills (touches.pause elapsed) (fill_fills _ handle content) (.inl within)
  | canonical | isPresent | isDirectory | now | token | pause => exact refused.elim

/-- A request within bounds that is answered keeps them, and draws from the bound on. -/
theorem touches_of_answered {request : Request} {answer : request.Answer} {elapsed : Nat}
    (within : request.IsWithin spot deep base.fresh) (touches : Touches spot deep base store)
    (answered : store.answerAfter elapsed request = (answer, after)) :
    Touches spot deep base after ∧ request.DrawsFrom base.fresh answer := by
  have quiet (asks : request.isQuiet = true) : Touches spot deep base after := by
    have alike := answerAfter_quiet store elapsed asks
    rw [answered] at alike
    exact touches.alike alike
  cases request with
  | readText | canonical | isPresent | isDirectory | age | now | pause =>
      exact ⟨quiet rfl, trivial⟩
  | token =>
      exact ⟨quiet rfl, store.pause elapsed, touches.fresh, (congrArg Prod.fst answered).symm⟩
  | writeText path text => exact within.elim
  | makeDirectories path =>
      exact ⟨touches.deepens within (deepensAlong_of_made answered), trivial⟩
  | createNew path =>
      cases answer with
      | created handle =>
          have creates := creates_of_created answered
          refine ⟨ChangesOnly.trans touches (.of_creates creates (touches.located within)), ?_⟩
          rintro _ ⟨rfl⟩
          exact Nat.le_trans touches.fresh creates.unused
      | _ =>
          have alike := alike_of_not_created answered (by simp)
          exact ⟨touches.alike alike, by rintro _ ⟨⟩⟩
  | writeHandle handle text =>
      refine ⟨?_, trivial⟩
      cases answer with
      | true =>
          obtain ⟨_, _, fills⟩ := fills_of_written answered
          exact ChangesOnly.fills touches fills (.inl within)
      | false => exact touches.alike (alike_of_not_written answered).1
  | createTemporary directory =>
      cases answer with
      | none => exact ⟨touches.alike (alike_of_no_temporary answered), by rintro _ _ ⟨⟩⟩
      | some made =>
          obtain ⟨temporary, handle⟩ := made
          have creates := (creates_of_createTemporary answered).1
          have named := temporary_eq answered
          refine ⟨ChangesOnly.trans touches (.of_creates creates (touches.located ?_)), ?_⟩
          · exact named ▸ within store.fresh touches.fresh
          · rintro _ _ ⟨rfl⟩
            exact ⟨Nat.le_trans touches.fresh creates.unused, store.fresh, touches.fresh, named⟩
  | rename source target =>
      refine ⟨?_, trivial⟩
      cases answer with
      | true =>
          have renames := renames_of_renamed answered
          exact ChangesOnly.trans touches
            (.of_renames renames (touches.located within.1) (touches.located within.2))
      | false => exact touches.alike (alike_of_not_renamed answered).1
  | link source target =>
      refine ⟨?_, trivial⟩
      cases answer with
      | true =>
          obtain ⟨-, number, named, sets⟩ := sets_of_linked answered
          refine ChangesOnly.trans touches (.of_sets sets (touches.located within.2) ?_)
          rintro _ ⟨⟩
          exact ⟨source, named⟩
      | false => exact touches.alike (alike_of_not_linked answered)
  | remove path =>
      refine ⟨?_, trivial⟩
      cases answer with
      | true =>
          have sets := sets_of_removed answered
          exact ChangesOnly.trans touches (.of_sets sets (touches.located within) nofun)
      | false => exact touches.alike (alike_of_not_removed answered).1

/-- However a program ends, it changes only what its requests may touch. -/
theorem touches_of_ends {program : Program α} {result : α} {post : α → Prop}
    (within : program.IsWithin spot deep base.fresh post) (touches : Touches spot deep base store)
    (ends : program.Ends (Faulty faults) store result after) : Touches spot deep base after := by
  induction program generalizing store with
  | done value =>
      obtain ⟨-, rfl⟩ := ends
      exact touches
  | ask request next ih =>
      obtain ⟨answer, middle, ⟨-, _, answered⟩ | ⟨-, refused⟩, ends⟩ := ends
      · obtain ⟨touchesNext, drawn⟩ := touches_of_answered within.1 touches answered
        exact ih answer (within.2 answer drawn) touchesNext ends
      · obtain ⟨touchesNext, drawn⟩ := touches_of_refused within.1 touches refused
        exact ih answer (within.2 answer drawn) touchesNext ends

end Program

namespace Attempt

variable {α β : Type} {spot deep : Path → Prop} {bound : Nat}

theorem isWithin_bind {attempt : Attempt α} {next : α → Attempt β}
    {middle : Except Failure α → Prop} {post : Except Failure β → Prop}
    (within : attempt.run.IsWithin spot deep bound middle)
    (withinNext : ∀ value, middle (.ok value) → (next value).run.IsWithin spot deep bound post)
    (failed : ∀ failure, post (.error failure)) :
    (attempt >>= next).run.IsWithin spot deep bound post := by
  rw [ExceptT.run_bind]
  refine Program.isWithin_bind within fun result kind => ?_
  cases result with
  | error failure => exact failed failure
  | ok value => exact withinNext value kind

theorem isWithin_lift {program : Program α} {post : α → Prop}
    (within : program.IsWithin spot deep bound post) :
    (ExceptT.lift program : Attempt α).run.IsWithin spot deep bound fun _ => True := by
  rw [ExceptT.run_lift, map_eq_pure_bind]
  exact Program.isWithin_bind within fun _ _ => trivial

/-- A step in front of an attempt. -/
theorem isWithin_ask {request : Request} {next : request.Answer → Attempt β}
    {post : Except Failure β → Prop} (within : request.IsWithin spot deep bound)
    (withinNext : ∀ answer, request.DrawsFrom bound answer →
      (next answer).run.IsWithin spot deep bound post) :
    ((liftM (Program.step request) : Attempt _) >>= next).run.IsWithin spot deep bound post :=
  ⟨within, withinNext⟩

theorem isWithin_must {failure : Failure} {done : Program Bool} {post : Bool → Prop}
    (within : done.IsWithin spot deep bound post) :
    (must failure done).run.IsWithin spot deep bound fun _ => True := by
  refine isWithin_bind (isWithin_lift within) (fun value _ => ?_) fun _ => trivial
  cases value <;> exact trivial

/-- An attempt whose value does not count. -/
theorem isWithin_discard {attempt : Attempt α} {post : Except Failure α → Prop}
    (within : attempt.run.IsWithin spot deep bound post) :
    (discard attempt : Attempt Unit).run.IsWithin spot deep bound fun _ => True := by
  refine @Program.isWithin_bind _ _ spot deep bound attempt.run _ post _ within fun result _ => ?_
  cases result <;> exact trivial

/-- A failure that is dealt with. -/
theorem isWithin_tryCatch {attempt : Attempt α} {deal : Failure → Attempt α}
    {post middle : Except Failure α → Prop} (within : attempt.run.IsWithin spot deep bound middle)
    (done : ∀ value, middle (.ok value) → post (.ok value))
    (dealt : ∀ failure, (deal failure).run.IsWithin spot deep bound post) :
    (tryCatch attempt deal).run.IsWithin spot deep bound post := by
  refine @Program.isWithin_bind _ _ spot deep bound attempt.run _ middle _ within
    fun result kind => ?_
  cases result with
  | error failure => exact dealt failure
  | ok value => exact done value kind

end Attempt

end JavaStructure
