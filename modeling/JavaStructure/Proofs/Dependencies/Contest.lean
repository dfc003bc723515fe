/-
# Processes that contend for a cache

Any number of processes update one cache, and each has a standing: it has yet to
make the directories of the cache, it goes without the lock, it holds the lock and is
at some point of its update, or it has given the lock back.

The invariant says what the standings mean for the files. The lock of a holder is in
its place and carries its token; nobody else holds it; and the cache is what the
updates so far made of it, in the order in which their locks were taken. One lemma for
each kind of step shows that the step keeps the invariant.
-/

import Mathlib.Data.List.Basic
import Mathlib.Data.List.Induction
import JavaStructure.Proofs.Dependencies.Neighbours
import JavaStructure.Proofs.Files.Directories
import JavaStructure.Proofs.Files.Interleaving

namespace JavaStructure.Dependencies

open Store

/-- The lock file that a process holds after a step of its own. -/
def heldAfter (lock : Path) (held : Option Nat) : Event → Option Nat
  | ⟨_, .createNew path, .created handle⟩ => if path = lock then some handle else held
  | ⟨_, .remove path, true⟩ => if path = lock then none else held
  | _ => held

/-- The lock file that a process has created and not yet removed. -/
def heldFile? (lock : Path) (process : Nat) (events : List Event) : Option Nat :=
  events.foldl
    (fun held event => if event.process = process then heldAfter lock held event else held) none

/-- The process that took the lock in a step. -/
def taker? (lock : Path) : Event → Option Nat
  | ⟨process, .createNew path, .created _⟩ => if path = lock then some process else none
  | _ => none

/-- The processes that took the lock, in this order. -/
def takers (lock : Path) (events : List Event) : List Nat :=
  events.filterMap (taker? lock)

/-- Whether a step gives the lock file another name, to put it aside. -/
def breaks (lock : Path) : Event → Bool
  | ⟨_, .rename source target, done⟩ =>
      source = lock && target.lastName? != lock.lastName? && done
  | _ => false

/-- Whether a step failed to make the directories of a path. -/
def lacksDirectories : Event → Bool
  | ⟨_, .makeDirectories _, done⟩ => !done
  | _ => false

/-- A step that neither takes the lock nor gives it back. -/
def LeavesLock (lock : Path) (event : Event) : Prop :=
  taker? lock event = none ∧ ∀ held, heldAfter lock held event = held

theorem heldFile?_concat (lock : Path) (process : Nat) (events : List Event) (event : Event) :
    heldFile? lock process (events ++ [event]) =
      if event.process = process then heldAfter lock (heldFile? lock process events) event
      else heldFile? lock process events := by
  simp [heldFile?]

theorem takers_concat (lock : Path) (events : List Event) (event : Event) :
    takers lock (events ++ [event]) = takers lock events ++ (taker? lock event).toList := by
  rw [takers, takers, List.filterMap_append]
  cases held : taker? lock event <;> simp [held]

theorem LeavesLock.takers_eq {lock : Path} {event : Event} (leaves : LeavesLock lock event)
    (events : List Event) : takers lock (events ++ [event]) = takers lock events := by
  rw [takers_concat, leaves.1, Option.toList_none, List.append_nil]

/-- Who holds the lock file has taken the lock. -/
theorem mem_takers_of_held {lock : Path} {process file : Nat} {events : List Event}
    (held : heldFile? lock process events = some file) : process ∈ takers lock events := by
  induction events using List.reverseRecOn generalizing file with
  | nil => cases held
  | append_singleton front event ih =>
      rw [heldFile?_concat] at held
      rw [takers_concat, List.mem_append]
      split at held
      · next own =>
          unfold heldAfter at held
          split at held
          · next processToo path handle =>
              split at held
              · next same =>
                  subst same own
                  exact .inr (by simp [taker?])
              · exact .inl (ih held)
          · split at held
            · cases held
            · exact .inl (ih held)
          · exact .inl (ih held)
      · exact .inl (ih held)

/-- Only creating and removing files can take the lock or give it back. -/
theorem leavesLock_of_quiet {lock : Path} {process : Nat} {request : Request}
    (quiet : request.isQuiet = true) (answer : request.Answer) :
    LeavesLock lock ⟨process, request, answer⟩ := by
  cases request with
  | readText | canonical | isPresent | isDirectory | age | now | token | pause =>
      exact ⟨rfl, fun _ => rfl⟩
  | _ => cases quiet

/-- The directories of a cache are there. -/
def Settled (cache : Path) (store : Store) : Prop :=
  ∀ parent, cache.properParent? = some parent → ∃ place, store.reach parent = .directory place

/-- A store after the directories of a cache are made. -/
def opened (cache : Path) (store : Store) : Store :=
  match cache.properParent? with
  | none => store
  | some parent => (store.makeDirectories parent).2

/-- What a cache holds, once its directories are there. -/
def contentIn (cache : Path) (store : Store) : Option Content :=
  (opened cache store).content? cache

section Opened

variable {cache : Path} {store before after : Store}

theorem opened_of_settled (settled : Settled cache store) : opened cache store = store := by
  rw [opened]
  split
  · rfl
  · next parent named =>
      obtain ⟨place, reached⟩ := settled parent named
      rw [makeDirectories_of_directory reached]

theorem contentIn_of_settled (settled : Settled cache store) :
    contentIn cache store = store.content? cache := by
  rw [contentIn, opened_of_settled settled]

theorem Settled.of_same (settled : Settled cache before) (same : SameDirectories before after) :
    Settled cache after := by
  intro parent named
  obtain ⟨place, reached⟩ := settled parent named
  have directory := (same.reach parent).2
  rw [reached] at directory
  refine ⟨place, ?_⟩
  revert directory
  cases after.reach parent with
  | directory placeToo => rintro ⟨⟩; rfl
  | file | vacant | missing | invalid => rintro ⟨⟩

theorem opened_pause (store : Store) (elapsed : Nat) :
    opened cache (store.pause elapsed) = (opened cache store).pause elapsed := by
  rw [opened, opened]
  split
  · rfl
  · rw [makeDirectories, makeDirectories, makeDirectoriesUpTo_pause]

/-- After an attempt to make its directories that succeeded they are there. -/
theorem settled_of_made {parent : Path} (named : cache.properParent? = some parent)
    (made : store.makeDirectories parent = (true, after)) : Settled cache after := by
  intro parentToo namedToo
  obtain rfl : parent = parentToo := Option.some.inj (named.symm.trans namedToo)
  have proper : parent.text ≠ "" := by
    intro empty
    obtain ⟨-, kept⟩ := Option.filter_eq_some_iff.mp named
    simp [empty] at kept
  have leads := (makeDirectoriesUpTo_spec store parent (parent.text.length + 1)).2
  rw [← makeDirectories, made] at leads
  exact leads rfl proper

end Opened

/-- A temporary file that is being written. -/
structure Draft where
  path : Path
  number : Nat
  /-- What has been written so far. -/
  text : String
  /-- Whether it happens to have the name of the cache. -/
  atCache : Bool

/-- How far a process is with its update. -/
inductive Work
  | idle
  /-- The cache was read. -/
  | read (found : Option Content)
  | drafting (found : Option Content) (draft : Draft)
  /-- A draft that could not take the place of the cache is to be removed. -/
  | discarding (temporary : Path)
  | failed
  | replaced

/-- Whether a temporary file was made. -/
def Work.hasDrafted : Work → Bool
  | .idle | .read _ => false
  | _ => true

/-- Whether the cache was replaced. -/
def Work.hasReplaced : Work → Bool
  | .replaced => true
  | _ => false

/-- Where a process stands. -/
inductive Standing
  /-- The directories of the cache are yet to be made. -/
  | arriving
  | waiting
  /-- It has the lock file, which holds the token. -/
  | holding (file : Nat) (token : String) (work : Work)
  | gone (work : Work)

namespace Standing

def isHolding : Standing → Bool
  | .holding _ _ _ => true
  | _ => false

def hasTaken : Standing → Bool
  | .holding _ _ _ | .gone _ => true
  | _ => false

def work : Standing → Work
  | .arriving | .waiting => .idle
  | .holding _ _ work | .gone work => work

/-- The lock file that is held. -/
def file? : Standing → Option Nat
  | .holding file _ _ => some file
  | _ => none

/-- What was in the cache before a draft that is being written. -/
def found? : Standing → Option (Option Content)
  | .holding _ _ (.drafting found _) => some found
  | _ => none

theorem isHolding_of_found {standing : Standing} {found : Option Content}
    (drafting : standing.found? = some found) : standing.isHolding = true := by
  cases standing with
  | holding => rfl
  | arriving | waiting | gone => cases drafting

theorem hasTaken_of_isHolding {standing : Standing} (holding : standing.isHolding = true) :
    standing.hasTaken = true := by
  cases standing with
  | holding => rfl
  | arriving | waiting | gone => cases holding

theorem isHolding_eq (standing : Standing) : standing.isHolding = standing.file?.isSome := by
  cases standing <;> rfl

end Standing

/-- The lock file is in its place, has no other name, and holds the token. -/
structure HasLock (cache : Path) (store : Store) (file : Nat) (token : String) : Prop where
  inPlace : store.number? (Lock.pathFor cache) = some file
  only : ∀ path, store.number? path = some file →
    store.place? path = store.place? (Lock.pathFor cache)
  signed : store.holds? file = some (.text token)

/-- The draft is in its place. The cache is as it was found, unless the draft is what
stands at its place. -/
structure HasDraft (cache : Path) (store : Store) (file : Nat) (found : Option Content)
    (draft : Draft) : Prop where
  temporary : IsTemporary draft.path
  inPlace : store.number? draft.path = some draft.number
  written : store.holds? draft.number = some (.text draft.text)
  apart : draft.number ≠ file
  atCache : draft.atCache = true ↔ store.place? draft.path = store.place? cache
  found : draft.atCache = false →
    store.content? cache = found ∧ store.number? cache ≠ some draft.number

/-- What the progress of a holder means. -/
def Works (cache : Path) (store : Store) (file : Nat) : Work → Prop
  | .idle | .failed | .replaced => True
  | .read found => store.content? cache = found
  | .drafting found draft => HasDraft cache store file found draft
  | .discarding temporary => IsTemporary temporary ∧ store.place? temporary ≠ store.place? cache

/-- What a standing means. -/
def Describes (cache : Path) (store : Store) : Standing → Prop
  | .arriving | .gone _ => True
  | .waiting => Settled cache store
  | .holding file token work =>
      Settled cache store ∧ HasLock cache store file token ∧ Works cache store file work

/-- A step has no effect on the lock, the cache and the drafts, and gives no file a new
name. -/
structure Spares (cache : Path) (before after : Store) : Prop where
  same : SameDirectories before after
  lock : after.number? (Lock.pathFor cache) = before.number? (Lock.pathFor cache)
  cache : after.number? cache = before.number? cache
  draft : ∀ path, IsTemporary path → after.number? path = before.number? path
  named : ∀ path number, after.number? path = some number → before.number? path = some number
  holds? : ∀ number, after.holds? number = before.holds? number

section Frame

variable {cache aside : Path} {before after : Store} {standing : Standing}

theorem Spares.of_alike (alike : Alike before after) : Spares cache before after :=
  ⟨alike.same, alike.number? _, alike.number? _, fun path _ => alike.number? path,
    fun path _ named => (alike.number? path).symm.trans named, alike.holds?⟩

/-- Taking away a name under which a lock is put aside touches nothing else. -/
theorem Spares.of_sets_aside (putAside : IsAside (Lock.pathFor cache) aside)
    (sets : Sets before after aside none) : Spares cache before after where
  same := sets.same
  lock := sets.number?_of_ne (place?_ne_of_lastName sets.placed (aside_ne_lock putAside)).symm
  cache := sets.number?_of_ne (place?_ne_of_lastName sets.placed (aside_ne_cache putAside)).symm
  draft _ temporary := sets.number?_of_ne
    (place?_ne_of_lastName sets.placed (temporary_ne_aside temporary putAside).symm).symm
  named path number named := by
    rw [sets.number?] at named
    split at named
    · cases named
    · exact named
  holds? := sets.holds?

theorem Spares.content? (spares : Spares cache before after) :
    after.content? cache = before.content? cache := by
  rw [content?_eq, content?_eq, spares.cache]
  exact Option.bind_congr fun number _ => spares.holds? number

/-- The lock file is not the cache. -/
theorem HasLock.apart {store : Store} {file : Nat} {token : String}
    (lock : HasLock cache store file token) : store.number? cache ≠ some file := by
  intro named
  have placed : (store.place? (Lock.pathFor cache)).isSome :=
    Option.isSome_of_isSome_bind (Option.isSome_of_eq_some lock.inPlace)
  exact place?_ne_of_lastName placed (lock_ne_cache cache) (lock.only cache named).symm

theorem HasLock.of_spares {file : Nat} {token : String} (lock : HasLock cache before file token)
    (spares : Spares cache before after) : HasLock cache after file token :=
  ⟨spares.lock.trans lock.inPlace,
    fun path named => by
      rw [spares.same.place?, spares.same.place?]
      exact lock.only path (spares.named path file named),
    (spares.holds? file).trans lock.signed⟩

/-- A standing goes on to mean the same after a step that spares the cache. -/
theorem Spares.describes (spares : Spares cache before after)
    (describes : Describes cache before standing) : Describes cache after standing := by
  cases standing with
  | arriving | gone => trivial
  | waiting => exact describes.of_same spares.same
  | holding file token work =>
      obtain ⟨settled, hasLock, works⟩ := describes
      refine ⟨settled.of_same spares.same, hasLock.of_spares spares, ?_⟩
      cases work with
      | idle | failed | replaced => trivial
      | read found => exact spares.content?.trans works
      | drafting found draft =>
          refine ⟨works.temporary, ?_, ?_, works.apart, ?_, fun apart => ?_⟩
          · rw [spares.draft _ works.temporary, works.inPlace]
          · rw [spares.holds?, works.written]
          · rw [spares.same.place?, spares.same.place?]
            exact works.atCache
          · rw [spares.content?, spares.cache]
            exact works.found apart
      | discarding temporary =>
          refine ⟨works.1, ?_⟩
          rw [spares.same.place?, spares.same.place?]
          exact works.2

/-- Who does not hold the lock needs no more than the directories. -/
theorem describes_of_same (same : SameDirectories before after)
    (free : standing.isHolding = false) (describes : Describes cache before standing) :
    Describes cache after standing := by
  cases standing with
  | arriving | gone => trivial
  | waiting => exact describes.of_same same
  | holding => cases free

/-- Standings are described one by one. -/
theorem describes_update {store : Store} {standings : Nat → Standing} {process : Nat}
    {later : Standing} (own : Describes cache store later)
    (others : ∀ other, other ≠ process → Describes cache store (standings other)) (other : Nat) :
    Describes cache store (Function.update standings process later other) :=
  (Function.forall_update_iff standings (p := fun _ => Describes cache store)).mpr
    ⟨own, others⟩ other

/-- What it means for the store that a draft takes the place of the cache: the name of the
cache stands for the file of the draft, and the lock file stays. -/
structure Replaces (cache : Path) (lockFile : Nat) (draft : Draft) (before after : Store) :
    Prop where
  same : SameDirectories before after
  lock : after.number? (Lock.pathFor cache) = before.number? (Lock.pathFor cache)
  cache : after.number? cache = some draft.number
  only : ∀ path, after.number? path = some lockFile → before.number? path = some lockFile
  holds? : ∀ number, after.holds? number = before.holds? number
  numbered : after.IsNumbered

theorem HasDraft.replaces {file : Nat} {token : String} {found : Option Content} {draft : Draft}
    (hasDraft : HasDraft cache before file found draft) (hasLock : HasLock cache before file token)
    (numbered : before.IsNumbered) (renames : Renames before after draft.path cache) :
    Replaces cache file draft before after := by
  obtain ⟨number, named, ways⟩ := renames.steps
  obtain rfl : draft.number = number := Option.some.inj (hasDraft.inPlace.symm.trans named)
  have lockPlaced : (before.place? (Lock.pathFor cache)).isSome :=
    Option.isSome_of_isSome_bind (Option.isSome_of_eq_some hasLock.inPlace)
  have fromDraft : before.place? (Lock.pathFor cache) ≠ before.place? draft.path :=
    place?_ne_of_lastName lockPlaced (temporary_ne_lock cache hasDraft.temporary).symm
  have fromCache : before.place? (Lock.pathFor cache) ≠ before.place? cache :=
    place?_ne_of_lastName lockPlaced (lock_ne_cache cache)
  obtain ⟨sameFile, alike⟩ | ⟨apart, middle, dropped, placed⟩ := ways
  · exact ⟨alike.same, alike.number? _, (alike.number? _).trans sameFile,
      fun path stands => (alike.number? path).symm.trans stands, alike.holds?,
      alike.isNumbered numbered⟩
  · have bounded : ∀ number, some draft.number = some number → number < after.fresh := by
      rintro _ ⟨⟩
      exact Nat.lt_of_lt_of_le (numbered.lt hasDraft.inPlace)
        (Nat.le_trans dropped.fresh placed.fresh)
    refine ⟨dropped.same.trans placed.same, ?_, ?_, fun path stands => ?_, fun number => ?_,
      placed.isNumbered (dropped.isNumbered numbered (by simp)) bounded⟩
    · rw [placed.number?_of_ne, dropped.number?_of_ne fromDraft]
      rwa [dropped.same.place?, dropped.same.place?]
    · exact (placed.number? _).trans (if_pos rfl)
    · rw [placed.number?] at stands
      split at stands
      · exact absurd (Option.some.inj stands) hasDraft.apart
      · rw [dropped.number?] at stands
        split at stands
        · cases stands
        · exact stands
    · exact (placed.holds? number).trans (dropped.holds? number)

end Frame

/-- The standings go with the steps so far: who has the lock file that it created
holds the lock, and is the last one that took it. -/
structure Orderly (lock : Path) (events : List Event) (standings : Nat → Standing) : Prop where
  held : ∀ process, heldFile? lock process events = (standings process).file?
  once : (takers lock events).Nodup
  taken : ∀ process, process ∈ takers lock events ↔ (standings process).hasTaken = true
  last : ∀ process, (standings process).isHolding = true →
    (takers lock events).getLast? = some process

namespace Orderly

variable {lock : Path} {events : List Event} {standings : Nat → Standing} {event : Event}
variable {later : Standing}

/-- At most one process holds the lock. -/
theorem exclusive {first second : Nat} (orderly : Orderly lock events standings)
    (holds : (standings first).isHolding = true) (holdsToo : (standings second).isHolding = true) :
    first = second :=
  Option.some.inj ((orderly.last first holds).symm.trans (orderly.last second holdsToo))

/-- What a step shows of the lock is shown of the process that took the step. -/
theorem held_concat (orderly : Orderly lock events standings)
    (own : heldAfter lock (standings event.process).file? event = later.file?) (process : Nat) :
    heldFile? lock process (events ++ [event]) =
      (Function.update standings event.process later process).file? := by
  rw [heldFile?_concat, orderly.held process]
  by_cases same : process = event.process
  · subst same
    simpa using own
  · rw [if_neg (Ne.symm same), Function.update_of_ne same]

theorem leave (orderly : Orderly lock events standings) (leaves : LeavesLock lock event)
    (file : later.file? = (standings event.process).file?)
    (taken : later.hasTaken = (standings event.process).hasTaken) :
    Orderly lock (events ++ [event]) (Function.update standings event.process later) := by
  have same := leaves.takers_eq events
  refine ⟨orderly.held_concat ((leaves.2 _).trans file.symm), ?_, ?_, ?_⟩
  · rw [same]
    exact orderly.once
  · rw [same]
    intro process
    rw [orderly.taken process]
    by_cases own : process = event.process
    · subst own
      simp [taken]
    · rw [Function.update_of_ne own]
  · rw [same]
    intro process holds
    apply orderly.last process
    by_cases own : process = event.process
    · subst own
      rw [Function.update_self, Standing.isHolding_eq, file, ← Standing.isHolding_eq] at holds
      exact holds
    · rwa [Function.update_of_ne own] at holds

theorem take {file : Nat} {token : String} {work : Work} (orderly : Orderly lock events standings)
    (free : ∀ process, (standings process).isHolding = false)
    (untaken : (standings event.process).hasTaken = false)
    (takes : taker? lock event = some event.process)
    (held : heldAfter lock (standings event.process).file? event = some file) :
    Orderly lock (events ++ [event])
      (Function.update standings event.process (.holding file token work)) := by
  have more : takers lock (events ++ [event]) = takers lock events ++ [event.process] := by
    simp [takers_concat, takes]
  refine ⟨orderly.held_concat held, ?_, ?_, ?_⟩
  · rw [more, List.nodup_append]
    refine ⟨orderly.once, by simp, fun process inside other own => ?_⟩
    rw [List.mem_singleton.mp own]
    rintro rfl
    rw [(orderly.taken _).mp inside] at untaken
    cases untaken
  · rw [more]
    intro process
    by_cases own : process = event.process
    · subst own
      simp [Standing.hasTaken]
    · rw [Function.update_of_ne own, ← orderly.taken process]
      simp [own]
  · intro process holds
    by_cases own : process = event.process
    · rw [more, own]
      simp
    · rw [Function.update_of_ne own, free process] at holds
      cases holds

theorem release {work : Work} (orderly : Orderly lock events standings)
    (holding : (standings event.process).isHolding = true)
    (untaken : taker? lock event = none)
    (held : heldAfter lock (standings event.process).file? event = none) :
    Orderly lock (events ++ [event]) (Function.update standings event.process (.gone work)) := by
  have same : takers lock (events ++ [event]) = takers lock events := by
    simp [takers_concat, untaken]
  refine ⟨orderly.held_concat held, ?_, ?_, ?_⟩
  · rw [same]
    exact orderly.once
  · rw [same]
    intro process
    rw [orderly.taken process]
    by_cases own : process = event.process
    · subst own
      rw [Standing.hasTaken_of_isHolding holding, Function.update_self]
      rfl
    · rw [Function.update_of_ne own]
  · rw [same]
    intro process holds
    by_cases own : process = event.process
    · subst own
      simp [Standing.isHolding] at holds
    · rw [Function.update_of_ne own] at holds
      exact orderly.last process holds

end Orderly

/-- What processes contend for, and what each of them is to make of it. -/
structure Contest where
  cache : Path
  /-- What the update of a process makes of the content. -/
  effect : Nat → Option Content → Option Content
  /-- The directories there are, once those of the cache are made. -/
  isDirectory : String → Bool
  start : Option Content
  /-- Whether every attempt to make the directories succeeds. -/
  accessible : Prop

namespace Contest

/-- The lock that is contended for. -/
def lock (contest : Contest) : Path :=
  Lock.pathFor contest.cache

/-- The content after the updates that are done, in the order in which their locks were
taken. -/
def expected (contest : Contest) (taken : List Nat) (standings : Nat → Standing) :
    Option Content :=
  taken.foldl
    (fun content process =>
      if (standings process).work.hasReplaced then contest.effect process content else content)
    contest.start

/-- What the cache counts for: what was in it before a draft, or else what is in it. -/
def recorded (contest : Contest) (store : Store) (standing : Standing) : Option Content :=
  standing.found?.getD (contentIn contest.cache store)

/-- The cache counts for what the updates made of it. While a process writes a draft,
the others cannot tell. -/
def Matches (contest : Contest) (store : Store) (taken : List Nat) (standings : Nat → Standing) :
    Prop :=
  ∀ process, (∀ other, other ≠ process → (standings other).found? = none) →
    contest.recorded store (standings process) = contest.expected taken standings

variable {contest : Contest} {before after : Store} {taken takenToo : List Nat}
variable {standings : Nat → Standing} {process : Nat} {later : Standing}

theorem expected_update (contest : Contest)
    (replaced : later.work.hasReplaced = (standings process).work.hasReplaced) :
    contest.expected taken (Function.update standings process later) =
      contest.expected taken standings := by
  refine List.foldl_ext _ _ _ fun content other _ => ?_
  by_cases own : other = process
  · subst own
    simp [replaced]
  · simp [own]

theorem expected_update_of_notMem (contest : Contest) (absent : process ∉ taken) :
    contest.expected taken (Function.update standings process later) =
      contest.expected taken standings := by
  refine List.foldl_ext _ _ _ fun content other inside => ?_
  have own : other ≠ process := fun same => absent (same ▸ inside)
  simp [own]

theorem expected_concat (contest : Contest) (taken : List Nat) (standings : Nat → Standing)
    (process : Nat) :
    contest.expected (taken ++ [process]) standings =
      if (standings process).work.hasReplaced then
        contest.effect process (contest.expected taken standings)
      else contest.expected taken standings := by
  simp [expected, List.foldl_append]

/-- It is enough to look at the process that takes a step, as long as no other process
that writes a draft could miss an update. -/
theorem Matches.advance (holds : contest.Matches before taken standings)
    (exclusive : ∀ first second, (standings first).isHolding = true →
      (standings second).isHolding = true → first = second)
    (own : (∀ other, other ≠ process → (standings other).found? = none) →
      contest.recorded after later =
        contest.expected takenToo (Function.update standings process later))
    (others : ∀ other, other ≠ process → (standings other).isHolding = true →
      contest.expected takenToo (Function.update standings process later) =
        contest.expected taken standings) :
    contest.Matches after takenToo (Function.update standings process later) := by
  intro first alone
  by_cases same : first = process
  · subst same
    rw [Function.update_self]
    exact own fun other differs => by simpa [differs] using alone other differs
  · have unread : later.found? = none := by simpa using alone process (Ne.symm same)
    rw [Function.update_of_ne same]
    cases drafting : (standings first).found? with
    | some found =>
        have holdsFirst := Standing.isHolding_of_found drafting
        rw [others first same holdsFirst, ← holds first fun other differs => ?_]
        · simp [recorded, drafting]
        · cases draftingToo : (standings other).found? with
          | none => rfl
          | some foundToo =>
              exact absurd
                (exclusive other first (Standing.isHolding_of_found draftingToo) holdsFirst) differs
    | none =>
        rw [← own fun other differs => ?_]
        · simp [recorded, drafting, unread]
        · by_cases sameToo : other = first
          · rw [sameToo, drafting]
          · simpa [differs] using alone other sameToo

/-- What is true between any two steps. -/
structure Invariant (contest : Contest) (store : Store) (events : List Event)
    (standings : Nat → Standing) : Prop where
  numbered : store.IsNumbered
  describes : ∀ process, Describes contest.cache store (standings process)
  orderly : Orderly contest.lock events standings
  known : contest.accessible →
    ∀ path, (opened contest.cache store).isDirectory path = contest.isDirectory path.text
  content : contest.accessible →
    contest.Matches store (takers contest.lock events) standings

/-- The steps that are reckoned with: they take no lock away from its holder, and make
directories if that always succeeds. The standing of a process keeps whether it made a
temporary file. -/
def discipline (contest : Contest) : Discipline Standing where
  invariant := contest.Invariant
  permits events event :=
    (breaks contest.lock event = true →
      ∀ other, other ≠ event.process → heldFile? contest.lock other events = none) ∧
    (contest.accessible → lacksDirectories event = false)
  lasts standing := standing.work.hasDrafted = true

namespace Invariant

variable {events : List Event} {event : Event} {store : Store}

/-- Who waits for the lock has made the directories of the cache. -/
theorem settled_of_waiting (holds : contest.Invariant store events standings)
    (waits : standings process = .waiting) : Settled contest.cache store := by
  have described := holds.describes process
  rwa [waits] at described

theorem of_holding {file : Nat} {token : String} {work : Work}
    (holds : contest.Invariant store events standings)
    (holding : standings process = .holding file token work) :
    Settled contest.cache store ∧ HasLock contest.cache store file token ∧
      Works contest.cache store file work := by
  have described := holds.describes process
  rwa [holding] at described

theorem known_of_same (holds : contest.Invariant before events standings)
    (settled : Settled contest.cache before) (same : SameDirectories before after)
    (accessible : contest.accessible) (path : Path) :
    (opened contest.cache after).isDirectory path = contest.isDirectory path.text := by
  rw [← holds.known accessible path, opened_of_settled settled,
    opened_of_settled (settled.of_same same), same.isDirectory]

/-- While a process has the lock file in its place, no other process holds the lock. -/
theorem free_of_holding (holds : contest.Invariant store events standings)
    (holding : (standings process).isHolding = true) (other : Nat) (differs : other ≠ process) :
    (standings other).isHolding = false := by
  cases held : (standings other).isHolding with
  | false => rfl
  | true => exact absurd (holds.orderly.exclusive held holding) differs

/-- Where there is no lock file, nobody holds the lock. -/
theorem free_of_vacant (holds : contest.Invariant store events standings)
    (vacant : store.number? contest.lock = none) (other : Nat) :
    (standings other).isHolding = false := by
  have described := holds.describes other
  revert described
  cases standings other with
  | arriving | waiting | gone => exact fun _ => rfl
  | holding file token work =>
      rintro ⟨_, hasLock, _⟩
      exact absurd (vacant.symm.trans hasLock.inPlace) (by simp)

/-- A step of a process that has made the directories, which neither takes nor gives
back the lock and leaves the cache counting for the same. -/
theorem leave (holds : contest.Invariant before events standings) (later : Standing)
    (settled : Settled contest.cache before) (same : SameDirectories before after)
    (numbered : after.IsNumbered) (leaves : LeavesLock contest.lock event)
    (others : ∀ other, other ≠ event.process → Describes contest.cache after (standings other))
    (own : Describes contest.cache after later)
    (file : later.file? = (standings event.process).file?)
    (taken : later.hasTaken = (standings event.process).hasTaken)
    (replaced : later.work.hasReplaced = (standings event.process).work.hasReplaced)
    (recorded : (∀ other, other ≠ event.process → (standings other).found? = none) →
      later.found?.getD (after.content? contest.cache) =
        (standings event.process).found?.getD (before.content? contest.cache)) :
    contest.Invariant after (events ++ [event])
      (Function.update standings event.process later) where
  numbered := numbered
  describes := describes_update own others
  orderly := holds.orderly.leave leaves file taken
  known := holds.known_of_same settled same
  content accessible := by
    have kept : contest.expected (takers contest.lock (events ++ [event]))
        (Function.update standings event.process later) =
          contest.expected (takers contest.lock events) standings := by
      rw [leaves.takers_eq, contest.expected_update replaced]
    refine (holds.content accessible).advance (fun _ _ => holds.orderly.exclusive)
      (fun alone => ?_) fun _ _ _ => kept
    rw [kept, ← holds.content accessible event.process alone, Contest.recorded,
      Contest.recorded, contentIn_of_settled settled, contentIn_of_settled (settled.of_same same)]
    exact recorded alone

/-- A step that has no effect on the lock, the cache and the drafts. -/
theorem spare (holds : contest.Invariant before events standings)
    (settled : Settled contest.cache before) (spares : Spares contest.cache before after)
    (numbered : after.IsNumbered) (leaves : LeavesLock contest.lock event) :
    contest.Invariant after (events ++ [event]) standings := by
  have kept := holds.leave (standings event.process) settled spares.same numbered leaves
    (fun other _ => spares.describes (holds.describes other))
    (spares.describes (holds.describes event.process)) rfl rfl rfl fun _ => by rw [spares.content?]
  rwa [Function.update_eq_self] at kept

/-- An attempt to make the directories of the cache. -/
theorem arrive {parent : Path} {elapsed : Nat} {made : Bool}
    (holds : contest.Invariant before events standings)
    (arrives : standings process = .arriving)
    (named : contest.cache.properParent? = some parent)
    (answered : before.answerAfter elapsed (.makeDirectories parent) = (made, after))
    (succeeds : contest.accessible → made = true) :
    contest.Invariant after (events ++ [⟨process, .makeDirectories parent, made⟩])
      (Function.update standings process (if made then .waiting else .arriving)) := by
  set later : Standing := if made then .waiting else .arriving with laterIs
  have outcome : (before.pause elapsed).makeDirectories parent = (made, after) := answered
  have reached : after = (opened contest.cache before).pause elapsed := by
    rw [← opened_pause, opened, named]
    exact (congrArg Prod.snd outcome).symm
  have leaves : LeavesLock contest.lock ⟨process, .makeDirectories parent, made⟩ :=
    ⟨rfl, fun _ => rfl⟩
  have unmoved : later.file? = none ∧ later.work = .idle ∧ later.found? = none := by
    rw [laterIs]
    split <;> exact ⟨rfl, rfl, rfl⟩
  have spares (settled : Settled contest.cache before) : Spares contest.cache before after := by
    rw [reached, opened_of_settled settled]
    exact .of_alike (pause_alike before elapsed)
  have deepens := (makeDirectoriesUpTo_spec (before.pause elapsed) parent
    (parent.text.length + 1)).1
  rw [← makeDirectories, outcome] at deepens
  have arrived : made = true → Settled contest.cache after := by
    rintro rfl
    exact settled_of_made named outcome
  refine ⟨deepens.isNumbered ((pause_alike before elapsed).isNumbered holds.numbered),
    describes_update ?_ fun other _ => ?_, ?_, fun accessible path => ?_, fun accessible => ?_⟩
  · rw [laterIs]
    split
    · next done => exact arrived done
    · trivial
  · have described := holds.describes other
    revert described
    cases standings other with
    | arriving | gone => exact id
    | waiting => exact fun settled =>
        (spares settled).describes (show Describes contest.cache before .waiting from settled)
    | holding file token work =>
        exact fun described => (spares described.1).describes described
  · refine holds.orderly.leave leaves (by rw [arrives]; exact unmoved.1) ?_
    rw [arrives, laterIs]
    split <;> rfl
  · rw [opened_of_settled (arrived (succeeds accessible)), reached,
      (pause_alike _ elapsed).same.isDirectory, holds.known accessible]
  · have kept : contest.expected
        (takers contest.lock (events ++ [⟨process, .makeDirectories parent, made⟩]))
        (Function.update standings process later) =
          contest.expected (takers contest.lock events) standings := by
      rw [leaves.takers_eq, contest.expected_update (by rw [arrives, unmoved.2.1]; rfl)]
    refine (holds.content accessible).advance (fun _ _ => holds.orderly.exclusive)
      (fun alone => ?_) fun _ _ _ => kept
    rw [kept, ← holds.content accessible process alone, Contest.recorded, Contest.recorded,
      unmoved.2.2, arrives, contentIn_of_settled (arrived (succeeds accessible)), reached,
      (pause_alike _ elapsed).content?]
    rfl

/-- A step that takes the lock. -/
theorem take {handle : Nat} (holds : contest.Invariant before events standings)
    (waits : standings process = .waiting)
    (creates : Creates before after contest.lock handle) :
    contest.Invariant after
      (events ++ [⟨process, .createNew contest.lock, .created handle⟩])
      (Function.update standings process (.holding handle "" .idle)) := by
  have free := holds.free_of_vacant creates.free
  have settled := holds.settled_of_waiting waits
  have apart : before.place? contest.cache ≠ before.place? contest.lock :=
    (place?_ne_of_lastName creates.placed (lock_ne_cache contest.cache)).symm
  have named : after.number? contest.cache = before.number? contest.cache := by
    rw [creates.number?, if_neg apart]
  have unnumbered := creates.number?_ne holds.numbered contest.cache
  have content : after.content? contest.cache = before.content? contest.cache := by
    rw [content?_eq, content?_eq, named]
    refine Option.bind_congr fun number stands => ?_
    rw [creates.holds?, if_neg]
    rintro rfl
    exact unnumbered stands
  have takes : taker? contest.lock ⟨process, .createNew contest.lock, .created handle⟩ =
      some process := if_pos rfl
  have untaken : process ∉ takers contest.lock events := by
    intro inside
    have taken := (holds.orderly.taken process).mp inside
    rw [waits] at taken
    cases taken
  have others (other : Nat) (_ : other ≠ process) :
      Describes contest.cache after (standings other) :=
    describes_of_same creates.same (free other) (holds.describes other)
  refine ⟨creates.isNumbered holds.numbered, describes_update ?_ others, ?_,
    holds.known_of_same settled creates.same, fun accessible => ?_⟩
  · refine ⟨settled.of_same creates.same, ⟨?_, fun path stands => ?_, ?_⟩, trivial⟩
    · exact (creates.number? _).trans (if_pos rfl)
    · rw [creates.number?] at stands
      rw [creates.same.place?, creates.same.place?]
      split at stands
      · next same => exact same
      · exact absurd stands (creates.number?_ne holds.numbered path)
    · exact (creates.holds? _).trans (if_pos rfl)
  · exact holds.orderly.take free (by rw [waits]; rfl) takes (if_pos rfl)
  · refine (holds.content accessible).advance (fun _ _ => holds.orderly.exclusive)
      (fun alone => ?_) fun other _ holdsToo => absurd holdsToo (by simp [free other])
    have matched := holds.content accessible process alone
    rw [waits, Contest.recorded, contentIn_of_settled settled] at matched
    rw [takers_concat, takes, Contest.recorded,
      contentIn_of_settled (settled.of_same creates.same), content]
    refine matched.trans ?_
    rw [Option.toList_some, Contest.expected_concat, Function.update_self,
      contest.expected_update_of_notMem untaken]
    rfl

/-- A step that puts a draft in the place of the cache. -/
theorem replace {file : Nat} {token : String} {found : Option Content} {draft : Draft}
    (holds : contest.Invariant before events standings)
    (drafts : standings process = .holding file token (.drafting found draft))
    (renames : Renames before after draft.path contest.cache)
    (fits : contest.accessible → contest.effect process found = some (.text draft.text)) :
    contest.Invariant after
      (events ++ [⟨process, .rename draft.path contest.cache, true⟩])
      (Function.update standings process (.holding file token .replaced)) := by
  have holding : (standings process).isHolding = true := by rw [drafts]; rfl
  have free := holds.free_of_holding holding
  obtain ⟨settled, hasLock, hasDraft⟩ := holds.of_holding drafts
  have replaces := hasDraft.replaces hasLock holds.numbered renames
  have same := replaces.same
  have content : after.content? contest.cache = some (.text draft.text) := by
    rw [content?_eq, replaces.cache, Option.bind_some, replaces.holds?, hasDraft.written]
  have leaves : LeavesLock contest.lock ⟨process, .rename draft.path contest.cache, true⟩ :=
    ⟨rfl, fun _ => rfl⟩
  have others (other : Nat) (differs : other ≠ process) :
      Describes contest.cache after (standings other) :=
    describes_of_same same (free other differs) (holds.describes other)
  refine ⟨replaces.numbered, describes_update ?_ others, ?_, holds.known_of_same settled same,
    fun accessible => ?_⟩
  · refine ⟨settled.of_same same, ⟨replaces.lock.trans hasLock.inPlace, fun path stands => ?_, ?_⟩,
      trivial⟩
    · rw [same.place?, same.place?]
      exact hasLock.only path (replaces.only path stands)
    · rw [replaces.holds?, hasLock.signed]
  · exact holds.orderly.leave leaves (by rw [drafts]; rfl) (by rw [drafts]; rfl)
  · refine (holds.content accessible).advance (fun _ _ => holds.orderly.exclusive)
      (fun alone => ?_) fun other differs holdsToo => absurd holdsToo (by simp [free other differs])
    have matched := holds.content accessible process alone
    obtain ⟨earlier, order⟩ := List.getLast?_eq_some_iff.mp (holds.orderly.last process holding)
    have once := holds.orderly.once
    rw [order, List.nodup_append] at once
    have absent : process ∉ earlier := fun inside =>
      once.2.2 process inside process (List.mem_singleton.mpr rfl) rfl
    have foundIs : found = contest.expected earlier standings := by
      rw [order, contest.expected_concat, drafts] at matched
      exact matched
    have expected : contest.expected
        (takers contest.lock (events ++ [⟨process, .rename draft.path contest.cache, true⟩]))
        (Function.update standings process (.holding file token .replaced)) =
          some (.text draft.text) :=
      calc contest.expected (takers contest.lock (events ++ [_]))
            (Function.update standings process (.holding file token .replaced))
        _ = contest.effect process (contest.expected earlier
            (Function.update standings process (.holding file token .replaced))) := by
          rw [leaves.takers_eq, order, contest.expected_concat, Function.update_self]
          rfl
        _ = contest.effect process found := by
          rw [contest.expected_update_of_notMem absent, ← foundIs]
        _ = some (.text draft.text) := fits accessible
    rw [expected, Contest.recorded, contentIn_of_settled (settled.of_same same), content]
    rfl

/-- A step that gives the lock back. -/
theorem release {file : Nat} {token : String} {work : Work}
    (holds : contest.Invariant before events standings)
    (holding : standings process = .holding file token work)
    (ended : (Standing.holding file token work).found? = none)
    (sets : Sets before after contest.lock none) :
    contest.Invariant after (events ++ [⟨process, .remove contest.lock, true⟩])
      (Function.update standings process (.gone work)) := by
  have isHolding : (standings process).isHolding = true := by rw [holding]; rfl
  have free := holds.free_of_holding isHolding
  obtain ⟨settled, -⟩ := holds.of_holding holding
  have apart : before.place? contest.cache ≠ before.place? contest.lock :=
    (place?_ne_of_lastName sets.placed (lock_ne_cache contest.cache)).symm
  have others (other : Nat) (differs : other ≠ process) :
      Describes contest.cache after (standings other) :=
    describes_of_same sets.same (free other differs) (holds.describes other)
  refine ⟨sets.isNumbered holds.numbered (by simp), describes_update trivial others, ?_,
    holds.known_of_same settled sets.same, fun accessible => ?_⟩
  · exact holds.orderly.release isHolding rfl (if_pos rfl)
  · refine (holds.content accessible).advance (fun _ _ => holds.orderly.exclusive)
      (fun alone => ?_) fun other differs holdsToo => absurd holdsToo (by simp [free other differs])
    have matched := holds.content accessible process alone
    have replaced : (Standing.gone work).work.hasReplaced =
        (standings process).work.hasReplaced := by rw [holding]; rfl
    rw [holding, Contest.recorded, ended, contentIn_of_settled settled] at matched
    rw [contest.expected_update replaced, Contest.recorded,
      contentIn_of_settled (settled.of_same sets.same), sets.content?_of_ne apart]
    rw [takers_concat]
    exact (matched.trans (by simp [taker?]))

end Invariant

end Contest

end JavaStructure.Dependencies
