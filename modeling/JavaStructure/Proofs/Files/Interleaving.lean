/-
# Programs side by side

Any number of programs work on one store, each taking a step whenever it gets a
turn. A schedule says who gets the turns and how much time passes, so what holds
after every schedule holds at every moment of every interleaving.

Proofs go program by program. A discipline gives each process a standing, says what
holds between any two steps of whatever processes, and which steps are reckoned
with. A program that obeys the discipline keeps it by each of its own steps; programs
that all do keep it in every interleaving.
-/

import Mathlib.Logic.Function.Basic
import JavaStructure.Proofs.Files.Steps

namespace JavaStructure

/-- A step that was taken: by whom, what for, and with which answer. -/
structure Event where
  process : Nat
  request : Request
  answer : request.Answer

/-- A turn in a schedule: who has it, and the nanoseconds since the last one. -/
structure Turn where
  process : Nat
  elapsed : Nat
  deriving DecidableEq

/-- Programs that work on one store. -/
structure System (α : Type) where
  store : Store
  programs : List (Program α)
  /-- The steps taken so far, the first one first. -/
  events : List Event := []

namespace System

variable {α : Type}

/-- One step of a process. One that has ended, or is none, lets its turn pass. -/
def turn (system : System α) (turn : Turn) : System α :=
  match system.programs[turn.process]? with
  | some (.ask request next) =>
      let (answer, store) := system.store.answerAfter turn.elapsed request
      { store
        programs := system.programs.set turn.process (next answer)
        events := system.events ++ [⟨turn.process, request, answer⟩] }
  | _ => system

/-- All steps of a schedule. -/
def follow (system : System α) (schedule : List Turn) : System α :=
  schedule.foldl turn system

theorem follow_append (system : System α) (front back : List Turn) :
    system.follow (front ++ back) = (system.follow front).follow back :=
  List.foldl_append

/-- A turn is one step of the process that has it, or nothing. -/
theorem turn_cases (system : System α) (turn : Turn) :
    (∃ request next answer store,
        system.programs[turn.process]? = some (.ask request next) ∧
        system.store.answerAfter turn.elapsed request = (answer, store) ∧
        system.turn turn =
          { store
            programs := system.programs.set turn.process (next answer)
            events := system.events ++ [⟨turn.process, request, answer⟩] }) ∨
      system.turn turn = system := by
  rw [System.turn]
  split
  · next request next found => exact .inl ⟨request, next, _, _, found, rfl, rfl⟩
  · exact .inr rfl

/-- Processes do not come and go. -/
theorem getElem?_turn (system : System α) (turn : Turn) (process : Nat) :
    (system.turn turn).programs[process]? = none ↔ system.programs[process]? = none := by
  obtain ⟨request, next, answer, store, _, _, taken⟩ | idle := system.turn_cases turn
  · rw [taken]
    simp
  · rw [idle]

theorem events_turn (system : System α) (turn : Turn) :
    system.events <+: (system.turn turn).events := by
  obtain ⟨request, next, answer, store, _, _, taken⟩ | idle := system.turn_cases turn
  · rw [taken]
    exact List.prefix_append _ _
  · exact idle.symm ▸ List.prefix_rfl

theorem events_follow (system : System α) (schedule : List Turn) :
    system.events <+: (system.follow schedule).events := by
  induction schedule generalizing system with
  | nil => exact List.prefix_rfl
  | cons turn rest ih => exact (system.events_turn turn).trans (ih (system.turn turn))

end System

/-- What programs that work side by side hold on to. -/
structure Discipline (σ : Type) where
  /-- What is true between any two steps, of the store, the steps so far and the
  standing of each process. -/
  invariant : Store → List Event → (Nat → σ) → Prop
  /-- Whether a step is reckoned with, after the steps so far. -/
  permits : List Event → Event → Prop
  /-- What a standing keeps once it is true. -/
  lasts : σ → Prop

namespace Discipline

variable {α β σ : Type} {discipline : Discipline σ} {process : Nat} {standing : σ}

/-- A step keeps the invariant and leads to a standing that goes with its answer. -/
def Steps (discipline : Discipline σ) (process : Nat) (request : Request) (standing : σ)
    (goes : request.Answer → σ → Prop) : Prop :=
  ∀ (store : Store) (events : List Event) (standings : Nat → σ) (elapsed : Nat)
    (answer : request.Answer) (after : Store),
    discipline.invariant store events standings → standings process = standing →
    store.answerAfter elapsed request = (answer, after) →
    discipline.permits events ⟨process, request, answer⟩ →
    ∃ later, discipline.invariant after (events ++ [⟨process, request, answer⟩])
        (Function.update standings process later) ∧
      (discipline.lasts standing → discipline.lasts later) ∧ goes answer later

/-- Every step of a program keeps the invariant, and its value goes with the
standing that it ends in. -/
def Obeys (discipline : Discipline σ) (process : Nat) :
    Program α → σ → (α → σ → Prop) → Prop
  | .done value, standing, ends => ends value standing
  | .ask request next, standing, ends =>
      discipline.Steps process request standing fun answer later =>
        discipline.Obeys process (next answer) later ends

theorem Steps.mono {request : Request} {goes goesToo : request.Answer → σ → Prop}
    (steps : discipline.Steps process request standing goes)
    (weaker : ∀ answer later, goes answer later → goesToo answer later) :
    discipline.Steps process request standing goesToo := by
  intro store events standings elapsed answer after keeps same answered permitted
  obtain ⟨later, keepsToo, lasts, went⟩ :=
    steps store events standings elapsed answer after keeps same answered permitted
  exact ⟨later, keepsToo, lasts, weaker answer later went⟩

theorem Obeys.mono {program : Program α} {ends endsToo : α → σ → Prop}
    (obeys : discipline.Obeys process program standing ends)
    (weaker : ∀ value later, ends value later → endsToo value later) :
    discipline.Obeys process program standing endsToo := by
  induction program generalizing standing with
  | done value => exact weaker value standing obeys
  | ask request next ih => exact Steps.mono obeys fun answer later => ih answer

/-- A second program goes on from the standing that the first one ends in. -/
theorem Obeys.bind {first : Program α} {next : α → Program β} {ends : β → σ → Prop}
    (obeys : discipline.Obeys process first standing fun value later =>
      discipline.Obeys process (next value) later ends) :
    discipline.Obeys process (first >>= next) standing ends := by
  induction first generalizing standing with
  | done value => exact obeys
  | ask request rest ih => exact Steps.mono obeys fun answer later => ih answer

theorem Obeys.step {request : Request} {ends : request.Answer → σ → Prop}
    (steps : discipline.Steps process request standing ends) :
    discipline.Obeys process (Program.step request) standing ends :=
  steps

/-- A step in front of a program. -/
theorem Obeys.ask {request : Request} {next : request.Answer → Program α} {ends : α → σ → Prop}
    (steps : discipline.Steps process request standing fun answer later =>
      discipline.Obeys process (next answer) later ends) :
    discipline.Obeys process (Program.step request >>= next) standing ends :=
  steps

/-- A program whose value does not count. -/
theorem Obeys.discard {program : Program α} {ends : Unit → σ → Prop}
    (obeys : discipline.Obeys process program standing fun _ later => ends () later) :
    discipline.Obeys process (discard program) standing ends :=
  Obeys.bind obeys

theorem Obeys.pure {value : α} {ends : α → σ → Prop} (fits : ends value standing) :
    discipline.Obeys process (Pure.pure value : Program α) standing ends :=
  fits

/-- An attempt keeps the invariant in each step, and ends in a standing that goes
with its value, or with having failed. -/
def Attempts (discipline : Discipline σ) (process : Nat) (attempt : Attempt α) (standing : σ)
    (ends : α → σ → Prop) (fails : σ → Prop) : Prop :=
  discipline.Obeys process attempt.run standing fun result later =>
    match result with
    | .ok value => ends value later
    | .error _ => fails later

section Attempts

variable {attempt : Attempt α} {ends endsToo : α → σ → Prop} {fails failsToo : σ → Prop}

theorem Attempts.mono (attempts : discipline.Attempts process attempt standing ends fails)
    (weaker : ∀ value later, ends value later → endsToo value later)
    (weakerToo : ∀ later, fails later → failsToo later) :
    discipline.Attempts process attempt standing endsToo failsToo := by
  refine Obeys.mono attempts fun result later fits => ?_
  cases result with
  | ok value => exact weaker value later fits
  | error failure => exact weakerToo later fits

theorem Attempts.pure {value : α} (fits : ends value standing) :
    discipline.Attempts process (Pure.pure value) standing ends fails :=
  fits

theorem Attempts.throw {failure : Failure} (fits : fails standing) :
    discipline.Attempts (α := α) process (throw failure) standing ends fails :=
  fits

/-- What follows an attempt goes on from the standing that the attempt ends in, unless
it failed. -/
theorem Attempts.bind {next : α → Attempt β} {ends : β → σ → Prop}
    (attempts : discipline.Attempts process attempt standing
      (fun value later => discipline.Attempts process (next value) later ends fails) fails) :
    discipline.Attempts process (attempt >>= next) standing ends fails := by
  rw [Attempts, ExceptT.run_bind]
  refine Obeys.bind (Obeys.mono attempts fun result later fits => ?_)
  cases result with
  | ok value => exact fits
  | error failure => exact fits

/-- A program as an attempt that does not fail. -/
theorem Attempts.lift {program : Program α} {ends : α → σ → Prop}
    (obeys : discipline.Obeys process program standing ends) :
    discipline.Attempts process (ExceptT.lift program) standing ends fails := by
  rw [Attempts, ExceptT.run_lift, map_eq_pure_bind]
  exact Obeys.bind obeys

/-- A program in front of an attempt. -/
theorem Attempts.after {program : Program α} {next : α → Attempt β} {ends : β → σ → Prop}
    (obeys : discipline.Obeys process program standing fun value later =>
      discipline.Attempts process (next value) later ends fails) :
    discipline.Attempts process (liftM program >>= next) standing ends fails :=
  Attempts.bind (Attempts.lift obeys)

/-- A step in front of an attempt. -/
theorem Attempts.ask {request : Request} {next : request.Answer → Attempt β}
    {ends : β → σ → Prop}
    (steps : discipline.Steps process request standing fun answer later =>
      discipline.Attempts process (next answer) later ends fails) :
    discipline.Attempts process (liftM (Program.step request) >>= next) standing ends fails :=
  Attempts.after steps

/-- A step that has to be done. -/
theorem Attempts.must {failure : Failure} {program : Program Bool} {ends : Unit → σ → Prop}
    (obeys : discipline.Obeys process program standing fun done later =>
      if done then ends () later else fails later) :
    discipline.Attempts process (Attempt.must failure program) standing ends fails := by
  refine Attempts.after (Obeys.mono obeys fun done later fits => ?_)
  cases done with
  | true => exact fits
  | false => exact fits

/-- An attempt whose value does not count. -/
theorem Attempts.discard {ends : Unit → σ → Prop}
    (attempts : discipline.Attempts process attempt standing (fun _ later => ends () later) fails) :
    discipline.Attempts process (discard attempt) standing ends fails := by
  refine Obeys.bind (Obeys.mono attempts fun result later fits => ?_)
  cases result with
  | ok value => exact fits
  | error failure => exact fits

/-- An attempt whose failure is dealt with. -/
theorem Attempts.tryCatch {deal : Failure → Attempt α} {ends : α → σ → Prop}
    (attempts : discipline.Attempts process attempt standing ends fun later =>
      ∀ failure, discipline.Attempts process (deal failure) later ends fails) :
    discipline.Attempts process (tryCatch attempt deal) standing ends fails := by
  refine Obeys.bind (Obeys.mono attempts fun result later fits => ?_)
  cases result with
  | ok value => exact fits
  | error failure => exact fits failure

end Attempts

/-- The invariant is true, and each program goes on as the discipline says. -/
structure Keeps (discipline : Discipline σ) (system : System α) (standings : Nat → σ)
    (ends : Nat → α → σ → Prop) : Prop where
  invariant : discipline.invariant system.store system.events standings
  obeys : ∀ (process : Nat) (program : Program α), system.programs[process]? = some program →
    discipline.Obeys process program (standings process) (ends process)

/-- All steps are reckoned with. -/
def PermitsAll (discipline : Discipline σ) (events : List Event) : Prop :=
  ∀ front event, front ++ [event] <+: events → discipline.permits front event

theorem PermitsAll.of_prefix {events eventsToo : List Event}
    (permitted : discipline.PermitsAll eventsToo) (fewer : events <+: eventsToo) :
    discipline.PermitsAll events :=
  fun front event starts => permitted front event (starts.trans fewer)

variable {system : System α} {standings : Nat → σ} {ends : Nat → α → σ → Prop}

/-- One turn changes the standing of the process that has it, if anything. -/
theorem Keeps.turn (keeps : discipline.Keeps system standings ends) (turn : Turn)
    (permitted : discipline.PermitsAll (system.turn turn).events) :
    ∃ later, discipline.Keeps (system.turn turn) (Function.update standings turn.process later)
        ends ∧ (discipline.lasts (standings turn.process) → discipline.lasts later) ∧
      (system.programs[turn.process]? = none → later = standings turn.process) := by
  obtain ⟨request, next, answer, store, found, answered, taken⟩ | idle := system.turn_cases turn
  · rw [taken] at permitted ⊢
    obtain ⟨later, keepsToo, lasts, obeys⟩ := keeps.obeys _ _ found system.store system.events
      standings turn.elapsed answer store keeps.invariant rfl answered
      (permitted _ _ List.prefix_rfl)
    refine ⟨later, ⟨keepsToo, fun process program foundToo => ?_⟩, lasts, by simp [found]⟩
    by_cases same : process = turn.process
    · subst same
      obtain ⟨inside, -⟩ := List.getElem?_eq_some_iff.mp found
      simp only [List.getElem?_set_self inside, Option.some.injEq] at foundToo
      subst foundToo
      simpa using obeys
    · rw [List.getElem?_set_ne (Ne.symm same)] at foundToo
      rw [Function.update_of_ne same]
      exact keeps.obeys process program foundToo
  · rw [idle]
    exact ⟨standings turn.process, by simpa using keeps, id, fun _ => rfl⟩

/-- A discipline that each program obeys is kept in every interleaving. -/
theorem Keeps.follow (keeps : discipline.Keeps system standings ends) (schedule : List Turn)
    (permitted : discipline.PermitsAll (system.follow schedule).events) :
    ∃ later, discipline.Keeps (system.follow schedule) later ends ∧
      ∀ process, (discipline.lasts (standings process) → discipline.lasts (later process)) ∧
        (system.programs[process]? = none → later process = standings process) := by
  induction schedule generalizing system standings with
  | nil => exact ⟨standings, keeps, fun _ => ⟨id, fun _ => rfl⟩⟩
  | cons turn rest ih =>
      obtain ⟨middle, keepsTurn, lasts, stays⟩ := keeps.turn turn
        (permitted.of_prefix ((system.turn turn).events_follow rest))
      obtain ⟨later, keepsRest, rising⟩ := ih keepsTurn permitted
      refine ⟨later, keepsRest, fun process => ⟨fun lastsBefore => (rising process).1 ?_,
        fun absent =>
          ((rising process).2 ((system.getElem?_turn turn process).mpr absent)).trans ?_⟩⟩
      · by_cases same : process = turn.process
        · subst same
          simpa using lasts lastsBefore
        · simpa [same] using lastsBefore
      · by_cases same : process = turn.process
        · subst same
          simpa using stays absent
        · simp [same]

end Discipline

end JavaStructure
