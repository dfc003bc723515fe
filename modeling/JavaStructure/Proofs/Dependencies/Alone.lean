/-
# Merges that nothing interferes with

A merge that runs on its own, where the lock is free, the cache can be read and names
for temporary files are to be had, cannot fail. It leaves what its update makes of the
cache, and everything else as it was.
-/

import JavaStructure.Proofs.Dependencies.Contest
import JavaStructure.Proofs.Dependencies.Update
import JavaStructure.Proofs.Dependencies.Records

namespace JavaStructure

/-- An attempt that is run on a store has a value and leaves a store. -/
def Attempt.Succeeds {α : Type} (attempt : Attempt α) (store : Store) (value : α)
    (after : Store) : Prop :=
  attempt.run.run store = (.ok value, after)

namespace Attempt.Succeeds

variable {α β : Type} {store middle after : Store} {attempt : Attempt α} {value : α}

theorem bind {next : α → Attempt β} {valueToo : β}
    (first : Attempt.Succeeds attempt store value middle)
    (second : Attempt.Succeeds (next value) middle valueToo after) :
    Attempt.Succeeds (attempt >>= next) store valueToo after := by
  rw [Attempt.Succeeds, Attempt.run_bind, first]
  exact second

theorem pure (value : α) (store : Store) :
    Attempt.Succeeds (Pure.pure value) store value store :=
  rfl

/-- A program as an attempt that does not fail. -/
theorem lift {program : Program α} (ran : program.run store = (value, after)) :
    Attempt.Succeeds (ExceptT.lift program) store value after := by
  rw [Attempt.Succeeds, ExceptT.run_lift, map_eq_pure_bind, Program.run_bind, ran]
  rfl

/-- A step in front of an attempt. -/
theorem ask {request : Request} {answer : request.Answer} {next : request.Answer → Attempt α}
    (answered : store.answerAfter 1 request = (answer, middle))
    (second : Attempt.Succeeds (next answer) middle value after) :
    Attempt.Succeeds (liftM (Program.step request) >>= next) store value after :=
  bind (lift answered) second

theorem must {failure : Failure} {program : Program Bool}
    (ran : program.run store = (true, after)) :
    Attempt.Succeeds (Attempt.must failure program) store () after :=
  bind (lift ran) (pure () after)

/-- What catches failures makes no difference. -/
theorem tryCatch {deal : Failure → Attempt α}
    (succeeds : Attempt.Succeeds attempt store value after) :
    Attempt.Succeeds (tryCatch attempt deal) store value after := by
  rw [Attempt.Succeeds] at succeeds ⊢
  refine (Program.run_bind attempt.run _ store).trans ?_
  rw [succeeds]
  rfl

end Attempt.Succeeds

namespace Store

variable {store after : Store} {path : Path} {elapsed : Nat}

/-- Where a file could be made and there is none, one is created. -/
theorem exists_created (placed : (store.place? path).isSome) (free : store.number? path = none)
    (elapsed : Nat) :
    ∃ handle after, store.answerAfter elapsed (.createNew path) = (.created handle, after) := by
  have paused := pause_alike store elapsed
  obtain ⟨place, found⟩ := Option.isSome_iff_exists.mp placed
  have reached : (store.pause elapsed).reach path = .vacant place false :=
    reach_eq_vacant_iff.mpr ⟨(paused.same.place? path).trans found,
      (paused.number? path).trans free⟩
  simp [answerAfter, answerNow, createNew, reached]

theorem exists_temporary {directory : Path}
    (placed : (store.place? (directory.join (".tmp" ++ Text.decimal store.fresh))).isSome)
    (free : store.number? (directory.join (".tmp" ++ Text.decimal store.fresh)) = none)
    (elapsed : Nat) :
    ∃ handle after, store.answerAfter elapsed (.createTemporary directory) =
      (some (directory.join (".tmp" ++ Text.decimal store.fresh), handle), after) := by
  obtain ⟨handle, after, created⟩ := exists_created placed free elapsed
  refine ⟨handle, after, ?_⟩
  have createdNow : (store.pause elapsed).createNew
      (directory.join (".tmp" ++ Text.decimal store.fresh)) = (.created handle, after) := created
  have sameFresh : (store.pause elapsed).fresh = store.fresh := rfl
  simp only [answerAfter, answerNow, createTemporary, sameFresh, createdNow]

/-- A file that holds text takes more of it. -/
theorem exists_written {handle : Nat} {text : String}
    (held : store.holds? handle = some (.text text)) (elapsed : Nat) (more : String) :
    ∃ after, store.answerAfter elapsed (.writeHandle handle more) = (true, after) ∧
      Fills store after handle (.text (text ++ more)) ∧ after.fresh ≤ store.fresh := by
  cases answered : store.answerAfter elapsed (.writeHandle handle more) with
  | mk done after =>
      cases done with
      | false =>
          obtain ⟨-, unheld⟩ := alike_of_not_written answered
          exact absurd (unheld.symm.trans held) (by simp)
      | true =>
          obtain ⟨content, heldToo, fills⟩ := fills_of_written answered
          obtain rfl : content = .text text := Option.some.inj (heldToo.symm.trans held)
          exact ⟨after, rfl, fills, fresh_le_of_answered answered⟩

end Store

namespace Dependencies

open Store

variable {cache : Path} {store before middle after : Store} {content : Option Content}
variable {handle limit draws : Nat} {text : String}

/-- The temporary file for the next version of a cache, by its number. -/
def temporaryFor (cache : Path) (count : Nat) : Path :=
  (cache.properParent?.getD ⟨"."⟩).join (".tmp" ++ Text.decimal count)

theorem temporaryFor_isTemporary (cache : Path) (count : Nat) :
    IsTemporary (temporaryFor cache count) :=
  ⟨_, count, rfl⟩

/-- The cache can be read and replaced: no file stands in the place of a temporary file to
come, up to a limit, and the cache does not bear the name of one. -/
structure Replaceable (cache : Path) (limit : Nat) (store : Store) : Prop where
  numbered : store.IsNumbered
  placed : (store.place? cache).isSome
  readable : ∀ number, store.number? cache = some number →
    ∃ text, store.holds? number = some (.text text)
  temporary : ∀ count, store.fresh ≤ count → count < limit →
    (store.place? (temporaryFor cache count)).isSome ∧
      store.number? (temporaryFor cache count) = none ∧
      store.place? (temporaryFor cache count) ≠ store.place? cache

/-- The cache can be read and replaced, and its lock is free. -/
structure Ready (cache : Path) (limit : Nat) (store : Store) : Prop
    extends Replaceable cache limit store where
  lockPlaced : (store.place? (Lock.pathFor cache)).isSome
  unlocked : store.number? (Lock.pathFor cache) = none

/-- The directories of the cache are there or can be made, and then it is ready. -/
structure Usable (cache : Path) (limit : Nat) (store : Store) : Prop where
  made : ∀ parent, cache.properParent? = some parent → (store.makeDirectories parent).1 = true
  ready : Ready cache limit (opened cache store)

/-- A cache for which no directory is made. -/
theorem Ready.usable (flat : cache.properParent? = none) (ready : Ready cache limit store) :
    Usable cache limit store where
  made parent named := by cases flat.symm.trans named
  ready := by rwa [opened, flat]

theorem Replaceable.of_alike (replaceable : Replaceable cache limit before)
    (alike : Alike before after) : Replaceable cache limit after where
  numbered := alike.isNumbered replaceable.numbered
  placed := by
    rw [alike.same.place?]
    exact replaceable.placed
  readable number named := by
    rw [alike.number?] at named
    rw [alike.holds?]
    exact replaceable.readable number named
  temporary count later below := by
    rw [alike.same.place?, alike.number?, alike.same.place?]
    exact replaceable.temporary count (Nat.le_trans alike.fresh later) below

theorem Ready.of_alike (ready : Ready cache limit before) (alike : Alike before after) :
    Ready cache limit after where
  toReplaceable := ready.toReplaceable.of_alike alike
  lockPlaced := by
    rw [alike.same.place?]
    exact ready.lockPlaced
  unlocked := (alike.number? _).trans ready.unlocked

/-- What is read of a cache that can be read. -/
theorem Replaceable.readText (replaceable : Replaceable cache limit store) :
    (∃ text, store.readText cache = .ok text ∧ store.content? cache = some (.text text)) ∨
      (store.readText cache = .error .missing ∧ store.content? cache = none) := by
  cases named : store.number? cache with
  | some number =>
      obtain ⟨text, held⟩ := replaceable.readable number named
      refine .inl ⟨text, readText_eq_ok_iff.mpr ⟨number, named, held⟩, ?_⟩
      rw [content?_eq, named, Option.bind_some, held]
  | none =>
      obtain ⟨place, found⟩ := Option.isSome_iff_exists.mp replaceable.placed
      have reached : store.reach cache = .vacant place false :=
        reach_eq_vacant_iff.mpr ⟨found, named⟩
      refine .inr ⟨by rw [Store.readText, reached], ?_⟩
      rw [content?_eq, named, Option.bind_none]

/-- The cache holds something else, and the rest of the files are as they were. Not more
than so many fresh numbers were used up. -/
structure Rewrites (cache : Path) (draws : Nat) (before after : Store)
    (content : Option Content) : Prop where
  same : SameDirectories before after
  numbered : after.IsNumbered
  fresh : before.fresh ≤ after.fresh
  spent : after.fresh ≤ before.fresh + draws
  elsewhere : ∀ path, before.place? path ≠ before.place? cache →
    after.number? path = before.number? path
  held : ∀ number, number < before.fresh → after.holds? number = before.holds? number
  rewritten : after.content? cache = content
  absent : content = none → after.number? cache = none

namespace Rewrites

theorem of_pause {elapsed : Nat}
    (rewrites : Rewrites cache draws (store.pause elapsed) after content) :
    Rewrites cache draws store after content where
  same := (pause_alike store elapsed).same.trans rewrites.same
  numbered := rewrites.numbered
  fresh := rewrites.fresh
  spent := rewrites.spent
  elsewhere path apart := by
    have paused := pause_alike store elapsed
    rw [rewrites.elsewhere path, paused.number?]
    rwa [paused.same.place?, paused.same.place?]
  held number older :=
    (rewrites.held number older).trans ((pause_alike store elapsed).holds? number)
  rewritten := rewrites.rewritten
  absent := rewrites.absent

/-- Nothing is rewritten where nothing changes. -/
theorem refl (replaceable : Replaceable cache limit store) :
    Rewrites cache draws store store (store.content? cache) where
  same := .refl store
  numbered := replaceable.numbered
  fresh := Nat.le_refl _
  spent := Nat.le_add_right _ _
  elsewhere _ _ := rfl
  held _ _ := rfl
  rewritten := rfl
  absent empty := by
    cases named : store.number? cache with
    | none => rfl
    | some number =>
        obtain ⟨text, held⟩ := replaceable.readable number named
        rw [content?_eq, named, Option.bind_some, held] at empty
        cases empty

/-- A draft that is made, filled and put in the place of the cache. -/
theorem of_replaced {temporary : Path} {created filled : Store} (numbered : before.IsNumbered)
    (creates : Creates before created temporary handle)
    (fills : Fills created filled handle (.text text))
    (renames : Renames filled after temporary cache)
    (apart : before.place? temporary ≠ before.place? cache)
    (spent : after.fresh ≤ before.fresh + draws) :
    Rewrites cache draws before after (some (.text text)) := by
  have sameFilled := creates.same.trans fills.same
  have named : filled.number? temporary = some handle :=
    (fills.number? _).trans ((creates.number? _).trans (if_pos rfl))
  obtain ⟨number, namedToo, ways⟩ := renames.steps
  obtain rfl : handle = number := Option.some.inj (named.symm.trans namedToo)
  obtain ⟨sameFile, -⟩ | ⟨-, between, dropped, placed⟩ := ways
  · rw [fills.number?, creates.number?, if_neg (Ne.symm apart)] at sameFile
    exact absurd sameFile (creates.number?_ne numbered cache)
  · have held (number : Nat) : after.holds? number = filled.holds? number :=
      (placed.holds? number).trans (dropped.holds? number)
    have cacheNamed : after.number? cache = some handle :=
      (placed.number? _).trans (if_pos rfl)
    have later : created.fresh ≤ after.fresh :=
      calc created.fresh
        _ ≤ filled.fresh := fills.fresh
        _ ≤ between.fresh := dropped.fresh
        _ ≤ after.fresh := placed.fresh
    refine ⟨sameFilled.trans (dropped.same.trans placed.same), ?_, ?_, spent,
      fun path elsewhere => ?_, fun number older => ?_, ?_, by simp⟩
    · refine placed.isNumbered (dropped.isNumbered (fills.isNumbered
        (creates.isNumbered numbered)) (by simp)) ?_
      rintro _ ⟨⟩
      exact Nat.lt_of_lt_of_le creates.fresh later
    · exact Nat.le_trans creates.fresh_le later
    · rw [placed.number?_of_ne, dropped.number?, fills.number?, creates.number?,
        sameFilled.place?, sameFilled.place?]
      · split
        · next same =>
            rw [number?, same, ← number?]
            exact creates.free.symm
        · rfl
      · rwa [dropped.same.place?, dropped.same.place?, sameFilled.place?, sameFilled.place?]
    · have newer := creates.ne_of_lt older
      calc after.holds? number
        _ = filled.holds? number := held number
        _ = created.holds? number := by rw [fills.holds?, if_neg newer]
        _ = before.holds? number := by rw [creates.holds?, if_neg newer]
    · calc after.content? cache
        _ = after.holds? handle := by rw [content?_eq, cacheNamed, Option.bind_some]
        _ = filled.holds? handle := held handle
        _ = some (.text text) := by rw [fills.holds?, if_pos rfl]

/-- A cache that was rewritten with text can be rewritten again. -/
theorem replaceable (rewrites : Rewrites cache draws before after content)
    (replaceable : Replaceable cache limit before)
    (readable : ∀ held, content = some held → ∃ text, held = .text text) :
    Replaceable cache limit after where
  numbered := rewrites.numbered
  placed := by
    rw [rewrites.same.place?]
    exact replaceable.placed
  readable number named := by
    have whole := rewrites.rewritten
    rw [content?_eq, named, Option.bind_some] at whole
    cases contentIs : content with
    | none => exact absurd (named.symm.trans (rewrites.absent contentIs)) (by simp)
    | some held =>
        obtain ⟨text, rfl⟩ := readable held contentIs
        exact ⟨text, whole.trans contentIs⟩
  temporary count later below := by
    obtain ⟨placed, free, apart⟩ :=
      replaceable.temporary count (Nat.le_trans rewrites.fresh later) below
    rw [rewrites.same.place?, rewrites.elsewhere _ apart, rewrites.same.place?]
    exact ⟨placed, free, apart⟩

end Rewrites

theorem readLines_succeeds (policy : RetryPolicy) (replaceable : Replaceable cache limit store) :
    Attempt.Succeeds (Cache.readLines ⟨cache, policy⟩) store
      (Cache.linesOf (store.content? cache)) (store.pause 1) := by
  have paused := pause_alike store 1
  rw [← paused.content? cache]
  rcases (replaceable.of_alike paused).readText with ⟨text, read, whole⟩ | ⟨read, whole⟩
  · have answered : store.answerAfter 1 (.readText cache) = (.ok text, store.pause 1) :=
      congrArg (·, store.pause 1) read
    rw [whole]
    exact .ask answered (.pure _ _)
  · have answered : store.answerAfter 1 (.readText cache) = (.error .missing, store.pause 1) :=
      congrArg (·, store.pause 1) read
    rw [whole]
    exact .ask answered (.pure _ _)

theorem run_directoriesAmong (store : Store) (paths : List String) :
    (Imports.directoriesAmong paths).run store =
      (paths.filter fun path => store.isDirectory ⟨path⟩, store.pause paths.length) := by
  induction paths generalizing store with
  | nil => exact congrArg ([], ·) (store.pause_zero).symm
  | cons path rest ih =>
      have answered : (Program.step (.isDirectory ⟨path⟩)).run store =
          (store.isDirectory ⟨path⟩, store.pause 1) :=
        congrArg (·, store.pause 1) ((pause_alike store 1).same.isDirectory _)
      have ran := ih (store.pause 1)
      simp only [(pause_alike store 1).same.isDirectory, pause_pause] at ran
      calc (Imports.directoriesAmong (path :: rest)).run store
        _ = (if store.isDirectory ⟨path⟩ then
              path :: rest.filter fun path => store.isDirectory ⟨path⟩
            else rest.filter fun path => store.isDirectory ⟨path⟩,
            store.pause (1 + rest.length)) := by
          rw [Imports.directoriesAmong, Program.run_bind, answered, Program.run_bind, ran]
          rfl
        _ = ((path :: rest).filter fun path => store.isDirectory ⟨path⟩,
            store.pause (path :: rest).length) := by
          rw [List.filter_cons, List.length_cons, Nat.add_comm]

theorem run_record (store : Store) (merge : Merge) :
    (merge.imports.record? merge.now).run store =
      (merge.record? fun text => store.isDirectory ⟨text⟩,
        store.pause merge.imports.candidates.length) := by
  rw [Imports.record?, Program.run_bind, run_directoriesAmong]
  exact congrArg (·, _) (Record.ofImports?_filter _ merge.imports merge.now)

theorem writeLines_succeeds (temporary : Path) (lines : List String)
    (held : store.holds? handle = some (.text text)) :
    ∃ after, Attempt.Succeeds (Cache.writeLines temporary handle lines) store () after ∧
      Fills store after handle (.text (text ++ Cache.textOf lines)) ∧
      after.fresh ≤ store.fresh := by
  induction lines generalizing store text with
  | nil =>
      refine ⟨store, .pure () store, ⟨.refl store, fun _ => rfl, fun other => ?_, Nat.le_refl _⟩,
        Nat.le_refl _⟩
      split
      · next same =>
          subst same
          simpa [Cache.textOf] using held
      · rfl
  | cons line rest ih =>
      obtain ⟨middle, answered, fills, spent⟩ := exists_written held 1 (line ++ "\n")
      have heldNow : middle.holds? handle = some (.text (text ++ (line ++ "\n"))) :=
        (fills.holds? handle).trans (if_pos rfl)
      obtain ⟨after, succeeds, fillsRest, spentRest⟩ := ih heldNow
      refine ⟨after, .bind (.must answered) succeeds,
        ⟨fills.same.trans fillsRest.same,
          fun place => (fillsRest.numberAt? place).trans (fills.numberAt? place),
          fun other => ?_, Nat.le_trans fills.fresh fillsRest.fresh⟩,
        Nat.le_trans spentRest spent⟩
      rw [fillsRest.holds?, fills.holds?, Cache.textOf_cons]
      split
      · simp only [String.append_assoc]
      · rfl

/-- A cache that can be replaced is replaced by the lines. -/
theorem replace_succeeds (policy : RetryPolicy) (replaceable : Replaceable cache limit store)
    (room : store.fresh < limit) (lines : List String) :
    ∃ after, Attempt.Succeeds (Cache.replace ⟨cache, policy⟩ lines) store () after ∧
      Rewrites cache 1 store after (some (.text (Cache.textOf lines))) := by
  obtain ⟨placed, free, apart⟩ := replaceable.temporary store.fresh (Nat.le_refl _) room
  obtain ⟨handle, created, answered⟩ := exists_temporary placed free 1
  obtain ⟨creates, -⟩ := creates_of_createTemporary answered
  have spentCreated : created.fresh ≤ store.fresh + 1 := fresh_le_of_answered answered
  have blank : created.holds? handle = some (.text "") :=
    (creates.holds? handle).trans (if_pos rfl)
  obtain ⟨filled, writes, fills, spentFilled⟩ :=
    writeLines_succeeds (temporaryFor cache store.fresh) lines blank
  rw [String.empty_append] at fills
  have same := creates.same.trans fills.same
  cases renamed : filled.answerAfter 1 (.rename (temporaryFor cache store.fresh) cache) with
  | mk done after =>
      cases done with
      | false =>
          have named : filled.number? (temporaryFor cache store.fresh) = some handle :=
            (fills.number? _).trans ((creates.number? _).trans (if_pos rfl))
          obtain ⟨-, unnamed | unplaced⟩ := alike_of_not_renamed renamed
          · exact absurd (unnamed.symm.trans named) (by simp)
          · have cachePlaced := replaceable.placed
            rw [← same.place?, unplaced] at cachePlaced
            cases cachePlaced
      | true =>
          have spent : after.fresh ≤ store.fresh + 1 :=
            calc after.fresh
              _ ≤ filled.fresh := fresh_le_of_answered renamed
              _ ≤ created.fresh := spentFilled
              _ ≤ store.fresh + 1 := spentCreated
          exact ⟨after, .ask answered (.tryCatch (.bind writes (.must renamed))),
            .of_replaced replaceable.numbered creates fills (renames_of_renamed renamed) apart
              spent⟩

namespace Merge

/-- How a merge ends that nothing interferes with. -/
def outcome (merge : Merge) : MergeOutcome :=
  if merge.imports.declarations.isEmpty then .unchanged else .updated

theorem outcome_of_built {merge : Merge} {isDirectory : String → Bool} {record : Record}
    (built : merge.record? isDirectory = some record) : merge.outcome = .updated := by
  have some : merge.imports.declarations ≠ [] := fun none => by
    rw [Merge.record?, Record.ofImports?_eq_none_iff.mpr none] at built
    cases built
  simp [outcome, some]

end Merge

theorem mergeHeld_succeeds (policy : RetryPolicy) (replaceable : Replaceable cache limit store)
    (room : store.fresh < limit) (merge : Merge) :
    ∃ after, Attempt.Succeeds (Cache.mergeHeld ⟨cache, policy⟩ merge.imports merge.now) store
        merge.outcome after ∧
      Rewrites cache 1 store after
        (merge.effect (fun text => store.isDirectory ⟨text⟩) (store.content? cache)) := by
  have reads := readLines_succeeds policy replaceable
  have ran := run_record (store.pause 1) merge
  simp only [(pause_alike store 1).same.isDirectory, pause_pause] at ran
  generalize 1 + merge.imports.candidates.length = elapsed at ran
  have paused := pause_alike store elapsed
  cases built : merge.record? fun text => store.isDirectory ⟨text⟩ with
  | none =>
      have outcome : merge.outcome = .unchanged := by
        simp [Merge.outcome, Record.ofImports?_eq_none_iff.mp built]
      rw [built] at ran
      rw [outcome, Merge.effect, built]
      refine ⟨_, .bind reads (.bind (.lift ran) (.pure _ _)), ?_⟩
      dsimp only
      rw [← paused.content? cache]
      exact .of_pause (.refl (replaceable.of_alike paused))
  | some record =>
      rw [built] at ran
      rw [Merge.outcome_of_built built, Merge.effect, built]
      obtain ⟨after, replaces, rewrites⟩ := replace_succeeds policy (replaceable.of_alike paused)
        room (Cache.replaceLine (Cache.linesOf (store.content? cache)) record)
      exact ⟨after, .bind reads (.bind (.lift ran) (.bind replaces (.pure _ _))),
        .of_pause rewrites⟩

theorem acquire_succeeds (policy : RetryPolicy) (patient : 0 < policy.attempts)
    (ready : Ready cache limit store) :
    ∃ handle token created after,
      Attempt.Succeeds (Lock.acquire cache policy) store (some ⟨Lock.pathFor cache, token⟩) after ∧
        Creates store created (Lock.pathFor cache) handle ∧
        Fills created after handle (.text token) ∧ after.fresh ≤ store.fresh + 2 := by
  obtain ⟨handle, created, answered⟩ := exists_created ready.lockPlaced ready.unlocked 1
  have creates := creates_of_created answered
  obtain ⟨token, marked⟩ : ∃ token marked, created.answerAfter 1 .token = (token, marked) :=
    ⟨_, _, rfl⟩
  obtain ⟨marked, tokened⟩ := marked
  have alike : Alike created marked := by
    have quiet := answerAfter_quiet created 1 (rfl : Request.isQuiet .token = true)
    rwa [tokened] at quiet
  have blank : marked.holds? handle = some (.text "") := by
    rw [alike.holds?, creates.holds?, if_pos rfl]
  obtain ⟨attempts, counted⟩ := Nat.exists_eq_succ_of_ne_zero (Nat.ne_of_gt patient)
  obtain ⟨after, written, fills, spentWritten⟩ := exists_written blank 1 token
  rw [String.empty_append] at fills
  have spentMarked : marked.fresh ≤ created.fresh + 1 := fresh_le_of_answered tokened
  have spentCreated : created.fresh ≤ store.fresh + 1 := fresh_le_of_answered answered
  rw [Lock.acquire, counted, Lock.tryFor]
  exact ⟨handle, token, created, after,
    .ask answered (.bind (.ask tokened (.ask written (.pure _ _))) (.pure _ _)), creates,
    alike.fills fills, by omega⟩

/-- A lock that is in its place with the token of its holder is given back. -/
theorem run_release {token : String} (inPlace : store.number? (Lock.pathFor cache) = some handle)
    (signed : store.holds? handle = some (.text token)) :
    ∃ after, (Lock.release ⟨Lock.pathFor cache, token⟩).run store = ((), after) ∧
      Sets store after (Lock.pathFor cache) none ∧ after.fresh ≤ store.fresh := by
  have paused := pause_alike store 1
  have read : (store.pause 1).readText (Lock.pathFor cache) = .ok token :=
    readText_eq_ok_iff.mpr ⟨handle, (paused.number? _).trans inPlace,
      (paused.holds? _).trans signed⟩
  have answered : (Program.step (.readText (Lock.pathFor cache))).run store =
      (.ok token, store.pause 1) := congrArg (·, store.pause 1) read
  cases removed : (store.pause 1).answerAfter 1 (.remove (Lock.pathFor cache)) with
  | mk done after =>
      cases done with
      | false =>
          obtain ⟨-, unnamed⟩ := alike_of_not_removed removed
          rw [paused.number?, inPlace] at unnamed
          cases unnamed
      | true =>
          have spent : after.fresh ≤ store.fresh := fresh_le_of_answered removed
          refine ⟨after, ?_, paused.sets (sets_of_removed removed), spent⟩
          rw [Lock.release, Program.run_bind, answered]
          dsimp only
          rw [if_pos rfl]
          exact congrArg (fun reached => ((), reached.2)) removed

section Locked

variable {created locked rewritten : Store} {token : String}

/-- Neither the cache nor a temporary file stands where the lock is. -/
theorem Ready.apart (ready : Ready cache limit store) :
    store.place? cache ≠ store.place? (Lock.pathFor cache) :=
  (place?_ne_of_lastName ready.lockPlaced (lock_ne_cache cache)).symm

/-- A cache whose lock was taken can be read and replaced as before. -/
theorem Ready.replaceable_locked (ready : Ready cache limit store)
    (creates : Creates store created (Lock.pathFor cache) handle)
    (fills : Fills created locked handle (.text token)) : Replaceable cache limit locked := by
  have same := creates.same.trans fills.same
  have elsewhere {path : Path} (apart : store.place? path ≠ store.place? (Lock.pathFor cache)) :
      locked.number? path = store.number? path := by
    rw [fills.number?, creates.number?, if_neg apart]
  refine ⟨fills.isNumbered (creates.isNumbered ready.numbered), ?_, fun number named => ?_,
    fun count later below => ?_⟩
  · rw [same.place?]
    exact ready.placed
  · rw [elsewhere ready.apart] at named
    have newer : number ≠ handle := by
      rintro rfl
      exact creates.number?_ne ready.numbered cache named
    rw [fills.holds?, if_neg newer, creates.holds?, if_neg newer]
    exact ready.readable number named
  · have older : store.fresh ≤ count :=
      calc store.fresh
        _ ≤ created.fresh := creates.fresh_le
        _ ≤ locked.fresh := fills.fresh
        _ ≤ count := later
    obtain ⟨placed, free, apart⟩ := ready.temporary count older below
    rw [same.place?, same.place?, elsewhere (place?_ne_of_lastName placed
      (temporary_ne_lock cache (temporaryFor_isTemporary cache count)))]
    exact ⟨placed, free, apart⟩

theorem Ready.content?_locked (ready : Ready cache limit store)
    (creates : Creates store created (Lock.pathFor cache) handle)
    (fills : Fills created locked handle (.text token)) :
    locked.content? cache = store.content? cache := by
  have named : locked.number? cache = store.number? cache := by
    rw [fills.number?, creates.number?, if_neg ready.apart]
  rw [content?_eq, content?_eq, named]
  apply Option.bind_congr
  intro number found
  have newer : number ≠ handle := by
    rintro rfl
    exact creates.number?_ne ready.numbered cache found
  rw [fills.holds?, if_neg newer, creates.holds?, if_neg newer]

/-- After the lock is given back, only the cache is another. -/
theorem Rewrites.of_locked (ready : Ready cache limit store)
    (creates : Creates store created (Lock.pathFor cache) handle)
    (fills : Fills created locked handle (.text token))
    (rewrites : Rewrites cache draws locked rewritten content)
    (sets : Sets rewritten after (Lock.pathFor cache) none) (spent : locked.fresh ≤ store.fresh + 2)
    (spentNone : after.fresh ≤ rewritten.fresh) :
    Rewrites cache (draws + 2) store after content := by
  have same := creates.same.trans fills.same
  have sameRewritten := same.trans rewrites.same
  have older : store.fresh ≤ locked.fresh :=
    Nat.le_trans creates.fresh_le fills.fresh
  have cacheNamed : after.number? cache = rewritten.number? cache := by
    apply sets.number?_of_ne
    rw [sameRewritten.place?, sameRewritten.place?]
    exact ready.apart
  refine ⟨sameRewritten.trans sets.same, sets.isNumbered rewrites.numbered (by simp),
    Nat.le_trans older (Nat.le_trans rewrites.fresh sets.fresh), ?_, fun path elsewhere => ?_,
    fun number before => ?_, ?_, fun empty => cacheNamed.trans (rewrites.absent empty)⟩
  · have spentMore := rewrites.spent
    omega
  · have untaken : rewritten.number? path =
        if store.place? path = store.place? (Lock.pathFor cache) then some handle
        else store.number? path :=
      calc rewritten.number? path
        _ = locked.number? path := rewrites.elsewhere path (by rwa [same.place?, same.place?])
        _ = created.number? path := fills.number? path
        _ = _ := creates.number? path
    rw [sets.number?, sameRewritten.place?, sameRewritten.place?, untaken]
    split
    · next here =>
        rw [Store.number?, here, ← Store.number?]
        exact ready.unlocked.symm
    · rfl
  · have newer := creates.ne_of_lt before
    calc after.holds? number
      _ = rewritten.holds? number := sets.holds? number
      _ = locked.holds? number := rewrites.held number (Nat.lt_of_lt_of_le before older)
      _ = created.holds? number := by rw [fills.holds?, if_neg newer]
      _ = store.holds? number := by rw [creates.holds?, if_neg newer]
  · rw [← rewrites.rewritten, content?_eq, content?_eq, cacheNamed]
    exact Option.bind_congr fun number _ => sets.holds? number

end Locked

/-- A cache that was rewritten with text is ready again. -/
theorem Rewrites.ready (rewrites : Rewrites cache draws before after content)
    (ready : Ready cache limit before)
    (readable : ∀ held, content = some held → ∃ text, held = .text text) :
    Ready cache limit after where
  toReplaceable := rewrites.replaceable ready.toReplaceable readable
  lockPlaced := by
    rw [rewrites.same.place?]
    exact ready.lockPlaced
  unlocked := by
    rw [rewrites.elsewhere _ ready.apart.symm]
    exact ready.unlocked

theorem fresh_opened (cache : Path) (store : Store) :
    (opened cache store).fresh = store.fresh := by
  rw [opened]
  split
  · rfl
  · exact fresh_makeDirectories store _

/-- What a cache holds that can be read is text. -/
theorem Replaceable.content_text (replaceable : Replaceable cache limit store) {held : Content}
    (holds : store.content? cache = some held) : ∃ text, held = .text text := by
  rw [content?_eq] at holds
  obtain ⟨number, named, inside⟩ := Option.bind_eq_some_iff.mp holds
  obtain ⟨text, holdsText⟩ := replaceable.readable number named
  exact ⟨text, Option.some.inj (inside.symm.trans holdsText)⟩

/-- An update leaves text where it found text. -/
theorem Merge.effect_text (merge : Merge) {isDirectory : String → Bool}
    (readable : ∀ held, content = some held → ∃ text, held = .text text) {held : Content}
    (effect : merge.effect isDirectory content = some held) : ∃ text, held = .text text := by
  rw [Merge.effect] at effect
  split at effect
  · exact readable held effect
  · exact ⟨_, (Option.some.inj effect).symm⟩

/-- The part of a merge for which the directories of the cache have to be there. -/
theorem contend_succeeds (merge : Merge) (patient : 0 < merge.policy.attempts)
    (ready : Ready cache limit store) (room : store.fresh + 3 ≤ limit) :
    ∃ after,
      Attempt.Succeeds
          (do
            match ← Lock.acquire cache merge.policy with
            | none => return .skipped
            | some lock =>
                let outcome ← ExceptT.lift
                  (Cache.mergeHeld ⟨cache, merge.policy⟩ merge.imports merge.now).run
                lock.release
                liftExcept outcome)
          store merge.outcome after ∧
        Rewrites cache 3 store after
          (merge.effect (fun text => store.isDirectory ⟨text⟩) (store.content? cache)) := by
  obtain ⟨handle, token, created, locked, acquires, creates, fills, spent⟩ :=
    acquire_succeeds merge.policy patient ready
  obtain ⟨rewritten, merges, rewrites⟩ := mergeHeld_succeeds merge.policy
    (ready.replaceable_locked creates fills) (by omega) merge
  rw [ready.content?_locked creates fills] at rewrites
  simp only [(creates.same.trans fills.same).isDirectory] at rewrites
  have lockNamed : locked.number? (Lock.pathFor cache) = some handle := by
    rw [fills.number?, creates.number?, if_pos rfl]
  have inPlace : rewritten.number? (Lock.pathFor cache) = some handle := by
    rw [rewrites.elsewhere _ ?_, lockNamed]
    rw [(creates.same.trans fills.same).place?, (creates.same.trans fills.same).place?]
    exact ready.apart.symm
  have signed : rewritten.holds? handle = some (.text token) := by
    rw [rewrites.held handle (Nat.lt_of_lt_of_le creates.fresh fills.fresh), fills.holds?,
      if_pos rfl]
  obtain ⟨after, released, sets, spentNone⟩ := run_release inPlace signed
  refine ⟨after, .bind acquires (.bind (.lift merges) (.bind (.lift released) (.pure _ _))), ?_⟩
  exact .of_locked ready creates fills rewrites sets spent spentNone

/-- A merge that nothing interferes with makes its update, if it has one to make, and
leaves everything but the cache as it was. -/
theorem run_program (merge : Merge) (patient : 0 < merge.policy.attempts)
    (usable : Usable cache limit store) (room : store.fresh + 3 ≤ limit) :
    ∃ after, (merge.program cache).run store = (.ok merge.outcome, after) ∧
      Rewrites cache 3 (opened cache store) after
        (merge.effect (fun text => (opened cache store).isDirectory ⟨text⟩)
          (contentIn cache store)) := by
  rw [Merge.program, Cache.merge, contentIn]
  cases named : cache.properParent? with
  | none =>
      have unopened : opened cache store = store := by rw [opened, named]
      have ready := usable.ready
      rw [unopened] at ready ⊢
      exact contend_succeeds merge patient ready room
  | some parent =>
      have answered : (Program.step (.makeDirectories parent)).run store =
          (true, (opened cache store).pause 1) := by
        have made : ((opened cache store).pause 1) = (store.makeDirectories parent).2.pause 1 := by
          rw [opened, named]
        rw [made, ← usable.made parent named]
        exact makeDirectoriesUpTo_pause store 1 parent (parent.text.length + 1)
      have paused := pause_alike (opened cache store) 1
      obtain ⟨after, contends, rewrites⟩ :=
        contend_succeeds merge patient (usable.ready.of_alike paused)
          (by rwa [← fresh_opened cache store] at room)
      rw [paused.content? cache] at rewrites
      simp only [paused.same.isDirectory] at rewrites
      exact ⟨after, Attempt.Succeeds.bind (.must answered) contends, .of_pause rewrites⟩

/-- After a merge the directories of the cache are there, and the cache is usable again. -/
theorem usable_of_rewrites (merge : Merge) (usable : Usable cache limit store)
    (rewrites : Rewrites cache draws (opened cache store) after
      (merge.effect (fun text => (opened cache store).isDirectory ⟨text⟩)
        (contentIn cache store))) :
    Usable cache limit after ∧ opened cache after = after := by
  have settled : Settled cache after := by
    cases named : cache.properParent? with
    | none =>
        intro parent namedToo
        cases named.symm.trans namedToo
    | some parent =>
        have made : store.makeDirectories parent = (true, opened cache store) := by
          rw [opened, named, ← usable.made parent named]
        exact (settled_of_made named made).of_same rewrites.same
  have unchanged := opened_of_settled settled
  refine ⟨⟨fun parent named => ?_, ?_⟩, unchanged⟩
  · obtain ⟨place, reached⟩ := settled parent named
    rw [makeDirectories_of_directory reached]
  · rw [unchanged]
    exact rewrites.ready usable.ready fun held =>
      merge.effect_text fun held => usable.ready.content_text

end Dependencies

end JavaStructure
