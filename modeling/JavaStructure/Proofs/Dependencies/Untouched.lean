/-
# Merges that leave things as they were

A merge that works alone, and finds no lock old enough to be left behind, touches no file but the
cache, and that only if it ends with an update. Its lock and its temporary file are gone however
it ends, also where it was refused one of its steps.
-/

import Mathlib.Data.List.Basic
import JavaStructure.Proofs.Dependencies.Neighbours
import JavaStructure.Proofs.Dependencies.Update
import JavaStructure.Proofs.Files.Endings

namespace JavaStructure

namespace Dependencies

open Store

/-- The steps of a merge that may be refused, and what is left then. The reasons are none of the
program's: permissions, a full disk, a file that is no text. Directories may have been made in
part, and text may have been written in part; else all is as it was. -/
def Refused (cache : Path) (store after : Store) : (request : Request) → request.Answer → Prop
  | .makeDirectories _, done => done = false ∧ Deepens store after
  | .createNew _, creation => creation = .refused ∧ Alike store after
  | .readText path, read => path = cache ∧ read = .error .unreadable ∧ Alike store after
  | .createTemporary _, made => made = none ∧ Alike store after
  | .writeHandle handle _, done => done = false ∧ ∃ content, Fills store after handle content
  | .rename _ _, done => done = false ∧ Alike store after
  | _, _ => False

/-- The answers to a merge that works alone. Any time may pass before a step, but no file is ever
older than the limit, and each step is answered by the store or refused. -/
def Alone (cache : Path) (limit : Nat) : Answering := fun store request answer after =>
  (∀ age ∈ Program.ageIn request answer, age ≤ limit) ∧
    ((∃ elapsed, store.answerAfter elapsed request = (answer, after)) ∨
      Refused cache store after request answer)

variable {cache : Path} {limit handle : Nat} {store after : Store} {content : Content}

/-- A run on a store is answered like that as long as no age is over the limit. -/
theorem ends_alone {α : Type} {program : Program α}
    (young : ∀ age ∈ program.agesIn store, age ≤ limit) :
    program.Ends (Alone cache limit) store (program.run store).1 (program.run store).2 :=
  program.ends_run store young fun _ _ young => ⟨young, .inl ⟨1, rfl⟩⟩

theorem Alone.alike {request : Request} {answer : request.Answer}
    (answered : Alone cache limit store request answer after) (quiet : request.isQuiet = true) :
    Alike store after := by
  obtain ⟨-, ⟨elapsed, answered⟩ | refused⟩ := answered
  · have alike := answerAfter_quiet store elapsed quiet
    rwa [answered] at alike
  · cases request with
    | readText path => exact refused.2.2
    | canonical | isPresent | isDirectory | age | now | token | pause => exact refused.elim
    | _ => cases quiet

theorem ends_readLines {policy : RetryPolicy} {result : Except Failure (List String)}
    (ends : (Cache.readLines ⟨cache, policy⟩).run.Ends (Alone cache limit) store result after) :
    Alike store after := by
  rw [Cache.readLines] at ends
  obtain ⟨answer, middle, answered, ends⟩ := Attempt.ends_ask ends
  have alike := answered.alike rfl
  rcases answer with (_ | _) | text
  all_goals
    obtain ⟨-, rfl⟩ := ends
    exact alike

theorem ends_directoriesAmong {paths found : List String}
    (ends : (Imports.directoriesAmong paths).Ends (Alone cache limit) store found after) :
    Alike store after := by
  induction paths generalizing store found with
  | nil =>
      obtain ⟨-, rfl⟩ := ends
      exact .refl store
  | cons path rest ih =>
      rw [Imports.directoriesAmong] at ends
      obtain ⟨answer, middle, answered, ends⟩ := Program.ends_ask.mp ends
      obtain ⟨others, later, among, -, rfl⟩ := Program.ends_bind.mp ends
      exact (answered.alike rfl).trans (ih among)

theorem ends_record {imports : Imports} {now : Nat} {result : Option Record}
    (ends : (imports.record? now).Ends (Alone cache limit) store result after) :
    Alike store after := by
  rw [Imports.record?] at ends
  obtain ⟨present, later, among, -, rfl⟩ := Program.ends_bind.mp ends
  exact ends_directoriesAmong among

/-- A step that writes fills the file, whether it is done or not. -/
theorem Alone.fills {text : String} {done : Bool}
    (answered : Alone cache limit store (.writeHandle handle text) done after)
    (held : store.holds? handle = some content) :
    ∃ later, Fills store after handle later ∧ (done = true → later = content.append text) := by
  obtain ⟨-, ⟨elapsed, answered⟩ | ⟨undone, later, fills⟩⟩ := answered
  · cases done with
    | true =>
        obtain ⟨contentToo, heldToo, fills⟩ := fills_of_written answered
        obtain rfl := Option.some.inj (heldToo.symm.trans held)
        exact ⟨_, fills, fun _ => rfl⟩
    | false =>
        obtain ⟨-, unheld⟩ := alike_of_not_written answered
        cases unheld.symm.trans held
  · exact ⟨later, fills, fun done => by cases undone.symm.trans done⟩

theorem ends_writeLines {temporary : Path} {lines : List String} {result : Except Failure Unit}
    (held : store.holds? handle = some content)
    (ends : (Cache.writeLines temporary handle lines).run.Ends (Alone cache limit) store result
      after) : ∃ later, Fills store after handle later := by
  induction lines generalizing store content with
  | nil =>
      obtain ⟨-, rfl⟩ := ends
      refine ⟨content, .refl store, fun _ => rfl, fun other => ?_, Nat.le_refl _⟩
      split
      · next same => rw [same, held]
      · rfl
  | cons line rest ih =>
      rw [Cache.writeLines] at ends
      obtain ⟨failure, first, -⟩ | ⟨⟨⟩, middle, first, ends⟩ := Attempt.ends_bind ends
      · obtain ⟨done, ⟨_, _, answered, rfl, rfl⟩, -⟩ := Attempt.ends_must first
        obtain ⟨later, fills, -⟩ := answered.fills held
        exact ⟨later, fills⟩
      · obtain ⟨done, ⟨_, _, answered, rfl, rfl⟩, -⟩ := Attempt.ends_must first
        obtain ⟨written, fills, -⟩ := answered.fills held
        have heldNow : _ = some written := (fills.holds? handle).trans (if_pos rfl)
        obtain ⟨later, fillsRest⟩ := ih heldNow ends
        exact ⟨later, fills.trans fillsRest⟩

/-- A file that was found under a name is removed. -/
theorem Alone.removed {path : Path} {done : Bool}
    (answered : Alone cache limit store (.remove path) done after)
    (named : store.number? path = some handle) : Sets store after path none := by
  obtain ⟨-, ⟨elapsed, answered⟩ | refused⟩ := answered
  · cases done with
    | true => exact sets_of_removed answered
    | false =>
        obtain ⟨-, unnamed⟩ := alike_of_not_removed answered
        cases unnamed.symm.trans named
  · exact refused.elim

/-- What a merge leaves of the store in which its directories were made: the same directories, and
the same files, but for the cache if it was updated. -/
structure Leaves (cache : Path) (updated : Prop) (before after : Store) : Prop where
  same : SameDirectories before after
  retains : Retains (fun place => updated ∧ before.place? cache = some place) before after

theorem Leaves.of_alike {updated : Prop} (alike : Alike store after) :
    Leaves cache updated store after :=
  ⟨alike.same, .of_alike alike⟩

theorem Leaves.after_alike {updated : Prop} {middle : Store} (alike : Alike store middle)
    (leaves : Leaves cache updated middle after) : Leaves cache updated store after := by
  refine ⟨alike.same.trans leaves.same, (Retains.of_alike alike).trans ?_⟩
  have retains := leaves.retains
  rwa [alike.same.place?] at retains

/-- A path to another place leads to the file that it led to. -/
theorem Leaves.number? {updated : Prop} {path : Path} (leaves : Leaves cache updated store after)
    (apart : store.place? path ≠ store.place? cache) : after.number? path = store.number? path := by
  rw [Store.number?, Store.number?, leaves.same.place?]
  refine Option.bind_congr fun place found => leaves.retains.numberAt? place fun other => ?_
  exact apart (found.trans other.2.symm)

theorem ends_fillTemporary {policy : RetryPolicy} {temporary : Path} {lines : List String}
    {result : Except Failure Unit} (held : store.holds? handle = some content)
    (ends : (Cache.fillTemporary ⟨cache, policy⟩ temporary handle lines).run.Ends
      (Alone cache limit) store result after) :
    (result = .ok () ∧ ∃ filled written, Fills store filled handle written ∧
        Renames filled after temporary cache) ∨
      (∃ failure, result = .error failure) ∧ ∃ written, Fills store after handle written := by
  rw [Cache.fillTemporary] at ends
  obtain ⟨failure, wrote, rfl⟩ | ⟨⟨⟩, filled, wrote, ends⟩ := Attempt.ends_bind ends
  · exact .inr ⟨⟨failure, rfl⟩, ends_writeLines held wrote⟩
  · obtain ⟨written, fills⟩ := ends_writeLines held wrote
    obtain ⟨done, ⟨answer, _, answered, rfl, rfl⟩, rfl⟩ := Attempt.ends_must ends
    obtain ⟨-, ⟨elapsed, answered⟩ | ⟨rfl, alike⟩⟩ := answered
    · cases answer with
      | true => exact .inl ⟨rfl, filled, written, fills, renames_of_renamed answered⟩
      | false =>
          exact .inr ⟨⟨_, rfl⟩, written, fills.alike (alike_of_not_renamed answered).1⟩
    · exact .inr ⟨⟨_, rfl⟩, written, fills.alike alike⟩

theorem ends_replace {policy : RetryPolicy} {lines : List String} {result : Except Failure Unit}
    (numbered : store.IsNumbered)
    (ends : (Cache.replace ⟨cache, policy⟩ lines).run.Ends (Alone cache limit) store result
      after) : Leaves cache (result = .ok ()) store after := by
  rw [Cache.replace] at ends
  obtain ⟨made, created, answered, ends⟩ := Attempt.ends_ask ends
  cases made with
  | none =>
      have alike : Alike store created := by
        obtain ⟨-, ⟨elapsed, answered⟩ | ⟨-, alike⟩⟩ := answered
        · exact alike_of_no_temporary answered
        · exact alike
      obtain ⟨-, rfl⟩ := ends
      exact .of_alike alike
  | some draft =>
      obtain ⟨temporary, handle⟩ := draft
      have creates : Creates store created temporary handle := by
        obtain ⟨-, ⟨elapsed, answered⟩ | ⟨other, -⟩⟩ := answered
        · exact (creates_of_createTemporary answered).1
        · cases other
      have blank : created.holds? handle = some (.text "") :=
        (creates.holds? handle).trans (if_pos rfl)
      dsimp only at ends
      obtain ⟨⟨⟩, ran, rfl⟩ | ⟨failure, filled, ran, discards⟩ := Attempt.ends_tryCatch ends
      · obtain ⟨-, filled, written, fills, renames⟩ | ⟨⟨_, other⟩, -⟩ :=
          ends_fillTemporary blank ran
        · obtain ⟨number, -, ways⟩ := renames.steps
          have sameRenamed : SameDirectories filled after := by
            obtain ⟨-, alike⟩ | ⟨-, between, dropped, set⟩ := ways
            · exact alike.same
            · exact dropped.same.trans set.same
          refine ⟨creates.same.trans (fills.same.trans sameRenamed), ?_⟩
          exact (Retains.of_renamed numbered creates fills renames).mono
            fun place here => ⟨rfl, here⟩
        · cases other
      · obtain ⟨other, -⟩ | ⟨-, written, fills⟩ := ends_fillTemporary blank ran
        · cases other
        · -- However far the draft came, it has its name still, and loses it.
          have named : filled.number? temporary = some handle := by
            rw [fills.number?, creates.number?, if_pos rfl]
          obtain ⟨_, removes, -⟩ | ⟨done, left, removes, -, rfl⟩ := Attempt.ends_discard discards
          · obtain ⟨_, _, other⟩ := Attempt.ends_lift removes
            cases other
          obtain ⟨_, ⟨_, _, answered, -, rfl⟩, -⟩ := Attempt.ends_lift removes
          have removed := answered.removed named
          exact ⟨creates.same.trans (fills.same.trans removed.same),
            .of_undone creates fills (.of_alike (.refl filled)) (.refl filled) removed⟩

/-- The part of a merge for which the lock is held. -/
theorem ends_mergeHeld {policy : RetryPolicy} {imports : Imports} {now : Nat}
    {result : Except Failure MergeOutcome} (numbered : store.IsNumbered)
    (ends : (Cache.mergeHeld ⟨cache, policy⟩ imports now).run.Ends (Alone cache limit) store result
      after) : Leaves cache (result = .ok .updated) store after := by
  rw [Cache.mergeHeld] at ends
  obtain ⟨failure, ran, -⟩ | ⟨lines, read, ran, ends⟩ := Attempt.ends_bind ends
  · exact .of_alike (ends_readLines ran)
  have alikeRead := ends_readLines ran
  obtain ⟨built, recorded, ran, ends⟩ := Attempt.ends_after ends
  have alike := alikeRead.trans (ends_record ran)
  cases built with
  | none =>
      obtain ⟨-, rfl⟩ := ends
      exact .of_alike alike
  | some record =>
      obtain ⟨failure, ran, rfl⟩ | ⟨⟨⟩, replaced, ran, rfl, rfl⟩ := Attempt.ends_bind ends
      · have leaves := (ends_replace (alike.isNumbered numbered) ran).after_alike alike
        exact ⟨leaves.same, leaves.retains.mono fun _ other => by cases other.1⟩
      · have leaves := (ends_replace (alike.isNumbered numbered) ran).after_alike alike
        exact ⟨leaves.same, leaves.retains.mono fun _ here => ⟨rfl, here.2⟩⟩

/-- A lock was taken: its file is there with the token. -/
def Takes (cache : Path) (store after : Store) (lock : Lock) : Prop :=
  lock.path = Lock.pathFor cache ∧ ∃ handle created,
    Creates store created (Lock.pathFor cache) handle ∧
      Fills created after handle (.text lock.token)

theorem Takes.after_alike {middle : Store} {lock : Lock} (alike : Alike store middle)
    (takes : Takes cache middle after lock) : Takes cache store after lock := by
  obtain ⟨path, handle, created, creates, fills⟩ := takes
  exact ⟨path, handle, created, alike.creates creates, fills⟩

/-- A lock file that was made is signed, or it is removed. -/
theorem ends_sign {result : Except Failure Lock} {created : Store}
    (creates : Creates store created (Lock.pathFor cache) handle)
    (ends : (Lock.sign (Lock.pathFor cache) handle).run.Ends (Alone cache limit) created result
      after) :
    (∃ lock, result = .ok lock ∧ Takes cache store after lock) ∨
      (∃ failure, result = .error failure) ∧ Leaves cache False store after := by
  rw [Lock.sign] at ends
  obtain ⟨token, marked, tokened, ends⟩ := Attempt.ends_ask ends
  have alike := tokened.alike rfl
  have blank : marked.holds? handle = some (.text "") := by
    rw [alike.holds?, creates.holds?, if_pos rfl]
  obtain ⟨done, written, answered, ends⟩ := Attempt.ends_ask ends
  obtain ⟨content, fillsMarked, whole⟩ := answered.fills blank
  have fills := alike.fills fillsMarked
  cases done with
  | true =>
      obtain ⟨rfl, rfl⟩ := ends
      rw [whole rfl, Content.append, String.empty_append] at fills
      exact .inl ⟨_, rfl, rfl, handle, created, creates, fills⟩
  | false =>
      have named : written.number? (Lock.pathFor cache) = some handle := by
        rw [fills.number?, creates.number?, if_pos rfl]
      obtain ⟨_, removes, -⟩ | ⟨done, left, removes, rfl, rfl⟩ := Attempt.ends_discard ends
      · obtain ⟨_, _, other⟩ := Attempt.ends_lift removes
        cases other
      obtain ⟨_, ⟨_, _, answered, -, rfl⟩, -⟩ := Attempt.ends_lift removes
      have removed := answered.removed named
      exact .inr ⟨⟨_, rfl⟩, creates.same.trans (fills.same.trans removed.same),
        .of_undone creates fills (.of_alike (.refl written)) (.refl written) removed⟩

/-- No lock is old enough to be taken away. -/
theorem ends_staleToken {lock : Path} {staleAfter : Nat} {result : Option String}
    (ends : (Lock.staleToken? lock staleAfter).Ends (Alone cache (staleAfter * 1000000000)) store
      result after) : result = none ∧ Alike store after := by
  rw [Lock.staleToken?] at ends
  obtain ⟨age?, middle, answered, ends⟩ := Program.ends_ask.mp ends
  have alike := answered.alike rfl
  cases age? with
  | none =>
      obtain ⟨rfl, rfl⟩ := ends
      exact ⟨rfl, alike⟩
  | some age =>
      have young : age ≤ staleAfter * 1000000000 := answered.1 age rfl
      dsimp only at ends
      rw [if_pos young] at ends
      obtain ⟨rfl, rfl⟩ := ends
      exact ⟨rfl, alike⟩

theorem ends_tryFor {policy : RetryPolicy} {attempts : Nat} {result : Except Failure (Option Lock)}
    (ends : (Lock.tryFor (Lock.pathFor cache) policy attempts).run.Ends
      (Alone cache (policy.staleAfter * 1000000000)) store result after) :
    (∃ lock, result = .ok (some lock) ∧ Takes cache store after lock) ∨
      (∀ lock, result ≠ .ok (some lock)) ∧ Leaves cache False store after := by
  induction attempts generalizing store with
  | zero =>
      obtain ⟨rfl, rfl⟩ := ends
      exact .inr ⟨fun lock => by simp, .of_alike (.refl store)⟩
  | succ attempts ih =>
      rw [Lock.tryFor] at ends
      obtain ⟨creation, created, answered, ends⟩ := Attempt.ends_ask ends
      have other (unmade : ∀ handle, creation ≠ .created handle) : Alike store created := by
        obtain ⟨-, ⟨elapsed, answered⟩ | ⟨-, alike⟩⟩ := answered
        · exact alike_of_not_created answered unmade
        · exact alike
      cases creation with
      | created handle =>
          have creates : Creates store created (Lock.pathFor cache) handle := by
            obtain ⟨-, ⟨elapsed, answered⟩ | ⟨other, -⟩⟩ := answered
            · exact creates_of_created answered
            · cases other
          obtain ⟨failure, ran, rfl⟩ | ⟨signed, left, ran, rfl, rfl⟩ := Attempt.ends_bind ends
          · obtain ⟨_, other, -⟩ | ⟨-, leaves⟩ := ends_sign creates ran
            · cases other
            · exact .inr ⟨fun lock => by simp, leaves⟩
          · obtain ⟨lock, same, takes⟩ | ⟨⟨_, other⟩, -⟩ := ends_sign creates ran
            · obtain rfl := Except.ok.inj same
              exact .inl ⟨_, rfl, takes⟩
            · cases other
      | refused =>
          obtain ⟨rfl, rfl⟩ := ends
          exact .inr ⟨fun lock => by simp, .of_alike (other fun handle => by simp)⟩
      | occupied =>
          have alike := other fun handle => by simp
          obtain ⟨seen?, aged, ran, ends⟩ := Attempt.ends_after ends
          obtain ⟨rfl, alikeAged⟩ := ends_staleToken ran
          have waited : ∃ middle, Alike store middle ∧
              (Lock.tryFor (Lock.pathFor cache) policy attempts).run.Ends
                (Alone cache (policy.staleAfter * 1000000000)) middle result after := by
            by_cases last : attempts = 0
            · simp only [last, if_true] at ends ⊢
              exact ⟨aged, alike.trans alikeAged, ends⟩
            · simp only [last, if_false] at ends
              obtain ⟨⟨⟩, paused, answered, ends⟩ := Attempt.ends_ask ends
              exact ⟨paused, (alike.trans alikeAged).trans (answered.alike rfl), ends⟩
          obtain ⟨middle, alikeWaited, ends⟩ := waited
          obtain ⟨lock, same, takes⟩ | ⟨none, leaves⟩ := ih ends
          · exact .inl ⟨lock, same, takes.after_alike alikeWaited⟩
          · exact .inr ⟨none, leaves.after_alike alikeWaited⟩

/-- A lock that is in its place with its token is given back. -/
theorem ends_release {lock : Lock} {result : Unit} (path : lock.path = Lock.pathFor cache)
    (inPlace : store.number? (Lock.pathFor cache) = some handle)
    (signed : store.holds? handle = some (.text lock.token))
    (ends : lock.release.Ends (Alone cache limit) store result after) :
    Sets store after (Lock.pathFor cache) none := by
  rw [Lock.release, path] at ends
  obtain ⟨read, middle, answered, ends⟩ := Program.ends_ask.mp ends
  have alike := answered.alike rfl
  obtain ⟨-, ⟨elapsed, answered⟩ | ⟨other, -⟩⟩ := answered
  · have paused := pause_alike store elapsed
    have token : (store.pause elapsed).readText (Lock.pathFor cache) = .ok lock.token :=
      readText_eq_ok_iff.mpr ⟨handle, (paused.number? _).trans inPlace,
        (paused.holds? _).trans signed⟩
    obtain rfl : .ok lock.token = read := token.symm.trans (congrArg Prod.fst answered)
    dsimp only at ends
    rw [if_pos rfl] at ends
    obtain ⟨done, removes⟩ := Program.ends_discard.mp ends
    exact alike.sets (removes.removed ((alike.number? _).trans inPlace))
  · exact absurd (congrArg Path.lastName? other) (lock_ne_cache cache)

/-- The part of a merge for which the directories of the cache have to be there. -/
theorem ends_contend {merge : Merge} {result : Except Failure MergeOutcome}
    (numbered : store.IsNumbered)
    (ends : (do
      match ← Lock.acquire cache merge.policy with
      | none => return .skipped
      | some lock =>
          let outcome ← ExceptT.lift
            (Cache.mergeHeld ⟨cache, merge.policy⟩ merge.imports merge.now).run
          lock.release
          liftExcept outcome : Attempt MergeOutcome).run.Ends
      (Alone cache (merge.policy.staleAfter * 1000000000)) store result after) :
    Leaves cache (result = .ok .updated) store after := by
  have untaken {reached : Except Failure (Option Lock)} {left : Store}
      (none : (∀ lock, reached ≠ .ok (some lock)) ∧ Leaves cache False store left) :
      Leaves cache (result = .ok .updated) store left :=
    ⟨none.2.same, none.2.retains.mono fun _ other => other.1.elim⟩
  obtain ⟨failure, ran, -⟩ | ⟨lock?, locked, ran, ends⟩ := Attempt.ends_bind ends
  · obtain ⟨_, other, -⟩ | none := ends_tryFor ran
    · cases other
    · exact untaken none
  cases lock? with
  | none =>
      obtain ⟨-, rfl⟩ := ends
      obtain ⟨_, other, -⟩ | none := ends_tryFor ran
      · cases other
      · exact untaken none
  | some lock =>
      obtain ⟨_, same, path, handle, created, creates, fills⟩ | ⟨none, -⟩ := ends_tryFor ran
      · obtain rfl := Option.some.inj (Except.ok.inj same)
        obtain ⟨outcome, merged, mergeEnds, ends⟩ := Attempt.ends_after ends
        obtain ⟨⟨⟩, released, releaseEnds, ends⟩ := Attempt.ends_after ends
        have leaves := ends_mergeHeld (fills.isNumbered (creates.isNumbered numbered)) mergeEnds
        have sameLocked := creates.same.trans fills.same
        have named : locked.number? (Lock.pathFor cache) = some handle := by
          rw [fills.number?, creates.number?, if_pos rfl]
        have placed : (locked.place? (Lock.pathFor cache)).isSome := by
          rw [sameLocked.place?]
          exact creates.placed
        have inPlace : merged.number? (Lock.pathFor cache) = some handle := by
          rw [leaves.number? (place?_ne_of_lastName placed (lock_ne_cache cache)), named]
        have signed : merged.holds? handle = some (.text lock.token) := by
          rw [leaves.retains.held handle (Nat.lt_of_lt_of_le creates.fresh fills.fresh),
            fills.holds?, if_pos rfl]
        have removed := ends_release path inPlace signed releaseEnds
        obtain ⟨rfl, rfl⟩ : outcome = result ∧ released = after := by
          cases outcome with
          | ok value => exact ends
          | error failure => exact ends
        have retains := leaves.retains
        rw [sameLocked.place?] at retains
        exact ⟨sameLocked.trans (leaves.same.trans removed.same),
          .of_undone creates fills retains leaves.same removed⟩
      · exact absurd rfl (none lock)

/-- Making directories loses none and touches no file, whether it is done or not. -/
theorem Alone.deepens {path : Path} {done : Bool}
    (answered : Alone cache limit store (.makeDirectories path) done after) :
    Deepens store after := by
  obtain ⟨-, ⟨elapsed, answered⟩ | ⟨-, deepens⟩⟩ := answered
  · have paused : Deepens store (store.pause elapsed) :=
      ⟨rfl, fun _ => id, fun _ _ => Iff.rfl, fun _ => rfl, Nat.le_refl _⟩
    have made := (makeDirectoriesUpTo_spec (store.pause elapsed) path (path.text.length + 1)).1
    obtain rfl : _ = after := congrArg Prod.snd answered
    exact paused.trans made
  · exact deepens

/-- A merge makes directories, and leaves the store in which it made them. -/
theorem ends_merge {merge : Merge} {result : Except Failure MergeOutcome}
    (numbered : store.IsNumbered)
    (ends : (merge.program cache).Ends (Alone cache (merge.policy.staleAfter * 1000000000)) store
      result after) :
    ∃ middle, Deepens store middle ∧ Leaves cache (result = .ok .updated) middle after := by
  rw [Merge.program, Cache.merge] at ends
  cases named : cache.properParent? with
  | none =>
      simp only [named] at ends
      exact ⟨store, .refl store, ends_contend numbered ends⟩
  | some parent =>
      simp only [named] at ends
      obtain ⟨failure, made, rfl⟩ | ⟨⟨⟩, middle, made, ends⟩ := Attempt.ends_bind ends
      · obtain ⟨_, ⟨_, _, answered, -, rfl⟩, -⟩ := Attempt.ends_must made
        exact ⟨_, answered.deepens, .of_alike (.refl _)⟩
      · obtain ⟨_, ⟨_, _, answered, -, rfl⟩, -⟩ := Attempt.ends_must made
        exact ⟨_, answered.deepens, ends_contend (answered.deepens.isNumbered numbered) ends⟩

/-- The name of a lock does not lead outward. -/
theorem inward_lock (inward : ".." ∉ cache.names) : ".." ∉ (Lock.pathFor cache).names := by
  obtain ⟨pieces, last, cut, longCut⟩ :=
    splitOn_append (by decide : '/' ∉ ".lock".toList) cache.text.toList
  rw [Path.names, cut, List.map_append, List.mem_append, not_or] at inward
  rw [Path.names, Lock.pathFor, String.toList_append, longCut, List.map_append, List.mem_append,
    not_or]
  refine ⟨inward.1, fun outward => ?_⟩
  have same : "..".toList = last ++ ".lock".toList :=
    (congrArg String.toList (List.mem_singleton.mp outward)).trans String.toList_ofList
  have long := congrArg List.length same
  rw [List.length_append] at long
  have short : "..".toList.length < ".lock".toList.length := by decide
  omega

/-- A merge that works alone leaves the files as they were.

Whatever steps it is refused, if no file is found to be older than a lock may be: unless the merge
ends with an update, at every place there is the file that was there before, and none where there
was none; and in any case so at every place but that of the cache, of which the place of the lock
is never one. Each of these files holds what it held, and no directory is lost. In terms of paths,
where none of them leads outward: the cache and its lock are found as before, and the lock is
found as before also after an update. -/
theorem merge_leaves_files {merge : Merge} {result : Except Failure MergeOutcome}
    (numbered : store.IsNumbered)
    (ends : (merge.program cache).Ends (Alone cache (merge.policy.staleAfter * 1000000000)) store
      result after) :
    (∀ place, (result = .ok .updated → after.place? cache ≠ some place) →
        after.numberAt? place = store.numberAt? place) ∧
      (∀ place, after.place? (Lock.pathFor cache) = some place →
        after.numberAt? place = store.numberAt? place) ∧
      (∀ number, number < store.fresh → after.holds? number = store.holds? number) ∧
      (∀ location, store.entryAt? location = some .directory →
        after.entryAt? location = some .directory) ∧
      (store.IsTree → ".." ∉ cache.names →
        (result ≠ .ok .updated → after.content? cache = store.content? cache) ∧
          after.number? (Lock.pathFor cache) = store.number? (Lock.pathFor cache) ∧
          after.content? (Lock.pathFor cache) = store.content? (Lock.pathFor cache)) := by
  obtain ⟨middle, deepens, leaves⟩ := ends_merge numbered ends
  have elsewhere (place : Location)
      (apart : result = .ok .updated → after.place? cache ≠ some place) :
      after.numberAt? place = store.numberAt? place := by
    rw [leaves.retains.numberAt? place, deepens.numberAt?]
    rintro ⟨updated, here⟩
    exact apart updated ((leaves.same.place? cache).trans here)
  have lockApart (found : (after.place? (Lock.pathFor cache)).isSome) :
      after.place? (Lock.pathFor cache) ≠ after.place? cache :=
    place?_ne_of_lastName found (lock_ne_cache cache)
  have held (number : Nat) (older : number < store.fresh) :
      after.holds? number = store.holds? number :=
    (leaves.retains.held number (Nat.lt_of_lt_of_le older deepens.fresh)).trans
      (deepens.holds? number)
  have content {path : Path} (named : after.number? path = store.number? path) :
      after.content? path = store.content? path := by
    rw [content?_eq, content?_eq, named]
    exact Option.bind_congr fun number found => held number (numbered.lt found)
  refine ⟨elsewhere, fun place found => elsewhere place fun _ same => ?_, held,
    fun location stands => ?_, fun tree inward => ⟨fun other => content ?_, ?_⟩⟩
  · exact lockApart (by rw [found]; rfl) (found.trans same.symm)
  · exact (leaves.same.directory_iff location).mpr (deepens.directories location stands)
  · rw [leaves.same.number? (fun place => leaves.retains.numberAt? place fun here => other here.1),
      deepens.number?_inward tree inward]
  · have lockNamed : after.number? (Lock.pathFor cache) = store.number? (Lock.pathFor cache) := by
      rw [← deepens.number?_inward tree (inward_lock inward)]
      cases found : middle.place? (Lock.pathFor cache) with
      | none => rw [Store.number?, Store.number?, leaves.same.place?, found]; rfl
      | some place =>
          exact leaves.number? (place?_ne_of_lastName (by rw [found]; rfl) (lock_ne_cache cache))
    exact ⟨lockNamed, content lockNamed⟩

/-- A cache whose lock is held by someone, for a second already. -/
def heldElsewhere : Store where
  entries := [(["deps"], .file 0), (["deps.lock"], .file 1)]
  files := [(0, ⟨.text "B|2;2;q/;Y.java;\n", 0⟩), (1, ⟨.text "7 0 0", 0⟩)]
  clock := 1000000000
  fresh := 2

/-- A store where the cache is no text. -/
def garbled : Store where
  entries := [(["deps"], .file 0)]
  files := [(0, ⟨.binary ⟨#[255]⟩, 0⟩)]
  fresh := 1

/-- A merge of one import that tries for the lock twice. -/
def impatient : Merge :=
  { policy := { attempts := 2, delay := 1 }, imports := ⟨"A", ["import p.X;"], "r"⟩, now := 4 }

theorem heldElsewhere_isNumbered : heldElsewhere.IsNumbered := by
  apply isNumbered_of_entries
  intro entry inside number file
  rcases List.mem_cons.mp inside with rfl | inside
  · obtain rfl := Entry.file.inj file
    decide
  · obtain rfl := List.mem_singleton.mp inside
    obtain rfl := Entry.file.inj file
    decide

theorem garbled_isNumbered : garbled.IsNumbered := by
  apply isNumbered_of_entries
  intro entry inside number file
  obtain rfl := List.mem_singleton.mp inside
  obtain rfl := Entry.file.inj file
  decide

theorem impatient_leaves_files :
    (((impatient.program ⟨"deps"⟩).run heldElsewhere).1 = .ok .skipped ∧
      ((impatient.program ⟨"deps"⟩).run heldElsewhere).2.content? ⟨"deps"⟩ =
        some (.text "B|2;2;q/;Y.java;\n") ∧
      ((impatient.program ⟨"deps"⟩).run heldElsewhere).2.content? ⟨"deps.lock"⟩ =
        some (.text "7 0 0")) ∧
    ((impatient.program ⟨"deps"⟩).run garbled).1 = .error (.cannotRead ⟨"deps"⟩) ∧
      ((impatient.program ⟨"deps"⟩).run garbled).2.content? ⟨"deps"⟩ =
        some (.binary ⟨#[255]⟩) ∧
      ((impatient.program ⟨"deps"⟩).run garbled).2.number? ⟨"deps.lock"⟩ = none := by
  have skipped : ((impatient.program ⟨"deps"⟩).run heldElsewhere).1 = .ok .skipped := by
    decide +kernel
  have failed : ((impatient.program ⟨"deps"⟩).run garbled).1 = .error (.cannotRead ⟨"deps"⟩) := by
    decide +kernel
  have endsHeld : (impatient.program ⟨"deps"⟩).Ends
      (Alone ⟨"deps"⟩ (impatient.policy.staleAfter * 1000000000)) heldElsewhere
      ((impatient.program ⟨"deps"⟩).run heldElsewhere).1
      ((impatient.program ⟨"deps"⟩).run heldElsewhere).2 :=
    ends_alone (by decide +kernel)
  have endsGarbled : (impatient.program ⟨"deps"⟩).Ends
      (Alone ⟨"deps"⟩ (impatient.policy.staleAfter * 1000000000)) garbled
      ((impatient.program ⟨"deps"⟩).run garbled).1
      ((impatient.program ⟨"deps"⟩).run garbled).2 :=
    ends_alone (by decide +kernel)
  obtain ⟨-, -, -, -, paths⟩ := merge_leaves_files heldElsewhere_isNumbered endsHeld
  obtain ⟨cache, -, lock⟩ := paths (isTree_of_entries (by decide +kernel)) (by decide +kernel)
  obtain ⟨-, -, -, -, pathsToo⟩ := merge_leaves_files garbled_isNumbered endsGarbled
  obtain ⟨cacheToo, lockToo, -⟩ :=
    pathsToo (isTree_of_entries (by decide +kernel)) (by decide +kernel)
  refine ⟨⟨skipped, ?_, lock.trans (by decide +kernel)⟩, failed, ?_,
    lockToo.trans (by decide +kernel)⟩
  · exact (cache (by rw [skipped]; decide)).trans (by decide +kernel)
  · exact (cacheToo (by rw [failed]; decide)).trans (by decide +kernel)

end Dependencies

end JavaStructure
