/-
# Locks that were left behind

A waiter that finds a stale lock puts the lock file aside and removes it, unless it
turns out to be another one by then. Between the look at the lock and the step that puts
it aside another waiter may have done the same and may have taken the lock. What is put
aside then is a live lock, and until it is put back anyone can take the lock as well.
Holders are safe exactly as long as this does not happen.
-/

import Mathlib.Data.List.Induction
import JavaStructure.Proofs.Dependencies.Serialization

namespace JavaStructure.Dependencies

open Store Contest

variable {cache : Path} {merges : List Merge} {start : Store}

/-- A lock file that is put aside while its holder is at work is not in its place. -/
theorem number?_of_broken {contest : Contest} {before after : Store} {events : List Event}
    {standings : Nat → Standing} {process elapsed : Nat} {target : Path}
    (holds : contest.Invariant before events standings)
    (holding : (standings process).isHolding = true)
    (differs : target.lastName? ≠ contest.lock.lastName?)
    (answered : before.answerAfter elapsed (.rename contest.lock target) = (true, after)) :
    after.number? contest.lock = none := by
  obtain ⟨file, token, work, stands⟩ : ∃ file token work,
      standings process = .holding file token work := by
    revert holding
    cases standings process with
    | holding file token work => exact fun _ => ⟨file, token, work, rfl⟩
    | arriving | waiting | gone => rintro ⟨⟩
  obtain ⟨-, lock, -⟩ := holds.of_holding stands
  obtain ⟨number, named, ways⟩ := (renames_of_renamed answered).steps
  obtain rfl : file = number := Option.some.inj (lock.inPlace.symm.trans named)
  have placed : (before.place? contest.lock).isSome :=
    Option.isSome_of_isSome_bind (Option.isSome_of_eq_some lock.inPlace)
  have apart : before.place? contest.lock ≠ before.place? target :=
    place?_ne_of_lastName placed differs.symm
  obtain ⟨sameFile, -⟩ | ⟨-, middle, dropped, moved⟩ := ways
  · exact absurd (lock.only target sameFile).symm apart
  · rw [moved.number?_of_ne]
    · exact (dropped.number? _).trans (if_pos rfl)
    · rwa [dropped.same.place?, dropped.same.place?]

/-- A break of a live lock that nothing came before shows at once. -/
theorem spared_of_holdersSafe (numbered : start.IsNumbered) (schedule : List Turn)
    (safe : ∀ front, front <+: schedule →
      HoldersSafe (Lock.pathFor cache) ((contending cache merges start).follow front)) :
    SparesHolders (Lock.pathFor cache)
      ((contending cache merges start).follow schedule).events := by
  induction schedule using List.reverseRecOn with
  | nil =>
      intro front event starts
      exact absurd (List.prefix_nil.mp starts) (by simp)
  | append_singleton front turn ih =>
      have spared := ih fun earlier starts => safe earlier (starts.trans (List.prefix_append _ _))
      have safeNow := safe _ List.prefix_rfl
      rw [System.follow_append] at safeNow ⊢
      generalize reachedIs : (contending cache merges start).follow front = reached at *
      change HoldersSafe _ (reached.turn turn) at safeNow
      change SparesHolders _ (reached.turn turn).events
      obtain ⟨request, next, answer, store, -, answered, taken⟩ | idle := reached.turn_cases turn
      swap
      · rwa [idle]
      rw [taken] at safeNow ⊢
      intro earlier event starts broken other differs
      rcases List.prefix_concat_iff.mp starts with same | before
      · obtain ⟨rfl, rfl⟩ : earlier = reached.events ∧ event = ⟨turn.process, request, answer⟩ := by
          simpa using same
        obtain ⟨source, target, rfl⟩ : ∃ source target, request = .rename source target := by
          unfold breaks at broken
          split at broken
          · next process source target done same =>
              obtain ⟨-, rfl, -⟩ := Event.mk.inj same
              exact ⟨source, target, rfl⟩
          · cases broken
        simp only [breaks, Bool.and_eq_true, decide_eq_true_eq, bne_iff_ne] at broken
        obtain ⟨⟨rfl, otherName⟩, rfl⟩ := broken
        cases held : heldFile? (Lock.pathFor cache) other reached.events with
        | none => rfl
        | some file =>
            subst reachedIs
            obtain ⟨standings, keeps, -⟩ :=
              contending_follow merges False numbered spared False.elim
            obtain ⟨token, work, holding⟩ := holding_of_held keeps.invariant.orderly held
            have isHolding : (standings other).isHolding = true := by
              rw [holding]
              rfl
            have gone := number?_of_broken keeps.invariant isHolding otherName answered
            have kept := (safeNow other file (by
              rw [heldFile?_concat, if_neg (Ne.symm differs)]
              exact held)).1
            exact absurd (gone.symm.trans kept) (by simp)
      · exact spared earlier event before broken other differs

/-- What is true at every moment of a schedule can be checked count by count. -/
theorem forall_prefix_iff {α : Type} {list : List α} {property : List α → Prop} :
    (∀ front, front <+: list → property front) ↔
      ∀ count < list.length + 1, property (list.take count) := by
  constructor
  · exact fun always count _ => always _ (List.take_prefix count list)
  · intro counted front starts
    rw [List.prefix_iff_eq_take.mp starts]
    exact counted _ (Nat.lt_succ_of_le starts.length_le)

/-- Only processes that took the lock need be asked whether they hold it. -/
theorem sparesHolders_iff {lock : Path} {events : List Event} :
    SparesHolders lock events ↔
      ∀ count < events.length, ∀ event ∈ events[count]?, breaks lock event = true →
        ∀ other ∈ takers lock (events.take count), other ≠ event.process →
          heldFile? lock other (events.take count) = none := by
  constructor
  · intro spared count _ event found broken other _ differs
    refine spared _ event ?_ broken other differs
    have longer : events.take (count + 1) = events.take count ++ [event] := by
      rw [List.take_add_one, Option.mem_def.mp found, Option.toList_some]
    rw [← longer]
    exact List.take_prefix _ _
  · intro counted front event starts broken other differs
    obtain ⟨back, rfl⟩ := starts
    have spared := counted front.length (by simp) event (by simp) broken other
    rw [List.append_assoc, List.take_left] at spared
    cases held : heldFile? lock other front with
    | none => rfl
    | some file => exact held.symm.trans (spared (mem_takers_of_held held) differs)

instance (lock : Path) (events : List Event) : Decidable (SparesHolders lock events) :=
  decidable_of_iff _ sparesHolders_iff.symm

/-- A text that was given out to tell one holder from all others. -/
def givenToken? : Event → Option String
  | ⟨_, .token, text⟩ => some text
  | _ => none

/-- No lock file that is held was written longer ago than a number of seconds. -/
def HeldLocksYounger {α : Type} (lock : Path) (seconds : Nat) (system : System α) : Prop :=
  ∀ process ∈ takers lock system.events, ∀ file ∈ heldFile? lock process system.events,
    ∀ stored ∈ system.store.file? file,
      system.store.clock - stored.modified ≤ seconds * 1000000000

instance {α : Type} (lock : Path) (seconds : Nat) (system : System α) :
    Decidable (HeldLocksYounger lock seconds system) :=
  inferInstanceAs (Decidable (∀ process ∈ takers lock system.events,
    ∀ file ∈ heldFile? lock process system.events, ∀ stored ∈ system.store.file? file,
      system.store.clock - stored.modified ≤ seconds * 1000000000))

/-- At every moment at most one process holds the lock, and the lock file of the holder
stays in its place until the holder removes it, exactly if no waiter puts a lock file aside
while another process holds it. -/
theorem holders_safe_iff_spared (cache : Path) (merges : List Merge) (start : Store)
    (schedule : List Turn) (numbered : start.IsNumbered) :
    (∀ front, front <+: schedule →
        HoldersSafe (Lock.pathFor cache) ((contending cache merges start).follow front)) ↔
      SparesHolders (Lock.pathFor cache)
        ((contending cache merges start).follow schedule).events := by
  constructor
  · exact spared_of_holdersSafe numbered schedule
  · rintro spared front ⟨back, rfl⟩
    refine holdersSafe_of_spared numbered (spared.of_prefix ?_)
    rw [System.follow_append]
    exact System.events_follow _ back

/-- A lock that a crashed process left behind a hundred seconds ago. -/
def leftBehind : Store where
  entries := [(["deps.lock"], .file 0)]
  files := [(0, ⟨.text "9 9 9", 0⟩)]
  clock := 100000000000
  fresh := 1

theorem leftBehind_isNumbered : leftBehind.IsNumbered := by
  apply isNumbered_of_entries
  rintro entry inside number file
  obtain rfl := List.mem_singleton.mp inside
  obtain rfl := Entry.file.inj file
  decide

/-- The first process breaks the lock that was left behind and takes it; the second one
comes when that is done, and waits. -/
def breakingInTurn : List Turn :=
  List.replicate 10 ⟨0, 1⟩ ++ List.replicate 3 ⟨1, 1⟩

theorem leftBehind_broken_in_turn :
    leftBehind.IsNumbered ∧
      SparesHolders (Lock.pathFor ⟨"deps"⟩)
        ((contending ⟨"deps"⟩ threeMerges leftBehind).follow breakingInTurn).events ∧
      heldFile? (Lock.pathFor ⟨"deps"⟩) 0
        ((contending ⟨"deps"⟩ threeMerges leftBehind).follow breakingInTurn).events = some 2 ∧
      ∀ front, front <+: breakingInTurn →
        HoldersSafe (Lock.pathFor ⟨"deps"⟩)
          ((contending ⟨"deps"⟩ threeMerges leftBehind).follow front) := by
  have spared : SparesHolders (Lock.pathFor ⟨"deps"⟩)
      ((contending ⟨"deps"⟩ threeMerges leftBehind).follow breakingInTurn).events := by
    decide +kernel
  refine ⟨leftBehind_isNumbered, spared, by decide +kernel, ?_⟩
  exact (holders_safe_iff_spared ⟨"deps"⟩ threeMerges leftBehind breakingInTurn
    leftBehind_isNumbered).mpr spared

/-- The second process looks at the lock that was left behind. The first one breaks it and
takes the lock. The second one puts aside what it takes for the old lock, and the third
finds no lock. -/
def overtaking : List Turn :=
  List.replicate 3 ⟨1, 1⟩ ++ List.replicate 10 ⟨0, 1⟩ ++ List.replicate 2 ⟨1, 1⟩ ++ [⟨2, 1⟩]

/-- One lock was left behind, all tokens are different, no lock that is held ever comes near
the age at which it counts as stale, and yet two processes hold the lock in the end. -/
theorem overtaking_not_holdersSafe :
    leftBehind.IsNumbered ∧
      leftBehind.content? (Lock.pathFor ⟨"deps"⟩) = some (.text "9 9 9") ∧
      ("9 9 9" :: ((contending ⟨"deps"⟩ threeMerges leftBehind).follow overtaking).events.filterMap
        givenToken?).Nodup ∧
      (∀ front, front <+: overtaking →
        HeldLocksYounger (Lock.pathFor ⟨"deps"⟩) 30
          ((contending ⟨"deps"⟩ threeMerges leftBehind).follow front)) ∧
      (∀ merge ∈ threeMerges, merge.policy.staleAfter = 30) ∧
      heldFile? (Lock.pathFor ⟨"deps"⟩) 0
        ((contending ⟨"deps"⟩ threeMerges leftBehind).follow overtaking).events = some 2 ∧
      heldFile? (Lock.pathFor ⟨"deps"⟩) 2
        ((contending ⟨"deps"⟩ threeMerges leftBehind).follow overtaking).events = some 5 ∧
      ¬ HoldersSafe (Lock.pathFor ⟨"deps"⟩)
        ((contending ⟨"deps"⟩ threeMerges leftBehind).follow overtaking) := by
  have first : heldFile? (Lock.pathFor ⟨"deps"⟩) 0
      ((contending ⟨"deps"⟩ threeMerges leftBehind).follow overtaking).events = some 2 := by
    decide +kernel
  have third : heldFile? (Lock.pathFor ⟨"deps"⟩) 2
      ((contending ⟨"deps"⟩ threeMerges leftBehind).follow overtaking).events = some 5 := by
    decide +kernel
  have young : ∀ count < overtaking.length + 1,
      HeldLocksYounger (Lock.pathFor ⟨"deps"⟩) 30
        ((contending ⟨"deps"⟩ threeMerges leftBehind).follow (overtaking.take count)) := by
    decide +kernel
  refine ⟨leftBehind_isNumbered, by decide +kernel, by decide +kernel,
    forall_prefix_iff.mpr young, by decide, first, third, fun safe => ?_⟩
  have same := (safe 0 2 first).2 2 5 third
  exact absurd same (by decide)

end JavaStructure.Dependencies
