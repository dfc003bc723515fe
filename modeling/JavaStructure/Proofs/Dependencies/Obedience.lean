/-
# Merges among contending processes

Each step of a merge keeps what the contending processes hold on to. The steps come
first, grouped by what the process is about: it waits for the lock, or it works on the
cache while it holds the lock. The programs made of them follow, up to a whole merge,
whose outcome goes with the standing that it ends in.
-/

import JavaStructure.Proofs.Dependencies.Contest
import JavaStructure.Proofs.Dependencies.Update

namespace JavaStructure.Dependencies

open Store

namespace Contest

variable {contest : Contest} {process : Nat} {standing : Standing}
variable {file : Nat} {token : String} {work : Work}

theorem settled_of_describes {cache : Path} {store : Store}
    (describes : Describes cache store standing)
    (entered : standing = .waiting ∨ standing.isHolding = true) : Settled cache store := by
  cases standing with
  | waiting => exact describes
  | holding => exact describes.1
  | arriving | gone => simp [Standing.isHolding] at entered

/-- A request that only asks changes nothing. The answer is that of a store that has
the same files and, if they can be made, the directories of the cache. -/
theorem steps_quiet {request : Request} (quiet : request.isQuiet = true)
    (entered : standing = .waiting ∨ standing.isHolding = true) :
    contest.discipline.Steps process request standing fun answer later =>
      later = standing ∧
        ∃ store, Describes contest.cache store standing ∧ (store.answerNow request).1 = answer ∧
          (contest.accessible →
            ∀ path, store.isDirectory path = contest.isDirectory path.text) := by
  intro store events standings elapsed answer after holds stands answered _
  have alike := answerAfter_quiet store elapsed quiet
  rw [answered] at alike
  have described : Describes contest.cache store standing := stands ▸ holds.describes process
  have settled := settled_of_describes described entered
  refine ⟨standing, ?_, id, rfl, store.pause elapsed, ?_, congrArg Prod.fst answered, ?_⟩
  · rw [← stands, Function.update_eq_self]
    exact holds.spare settled (.of_alike alike) (alike.isNumbered holds.numbered)
      (leavesLock_of_quiet quiet answer)
  · exact (Spares.of_alike (pause_alike store elapsed)).describes described
  · intro accessible path
    rw [(pause_alike store elapsed).same.isDirectory, ← holds.known accessible,
      opened_of_settled settled]

/-- A step of a waiting process that changes no more than the files of the lock. -/
theorem leave_waiting {before after : Store} {events : List Event} {event : Event}
    {standings : Nat → Standing} (holds : contest.Invariant before events standings)
    (waits : standings event.process = .waiting)
    (free : ∀ other, (standings other).isHolding = false)
    (same : SameDirectories before after) (numbered : after.IsNumbered)
    (leaves : LeavesLock contest.lock event)
    (content : after.content? contest.cache = before.content? contest.cache) :
    contest.Invariant after (events ++ [event]) standings := by
  have settled := holds.settled_of_waiting waits
  have kept := holds.leave .waiting settled same numbered leaves
    (fun other _ => describes_of_same same (free other) (holds.describes other))
    (settled.of_same same) (by rw [waits]) (by rw [waits]) (by rw [waits])
    fun _ => by rw [content, waits]
  rwa [← waits, Function.update_eq_self] at kept

theorem steps_createLock :
    contest.discipline.Steps process (.createNew contest.lock) .waiting fun answer later =>
      match answer with
      | .created handle => later = .holding handle "" .idle
      | .occupied | .refused => later = .waiting := by
  intro store events standings elapsed answer after holds waits answered _
  have settled := holds.settled_of_waiting waits
  have missed (missed : ∀ handle, answer ≠ .created handle)
      (leaves : LeavesLock contest.lock ⟨process, .createNew contest.lock, answer⟩) :
      contest.Invariant after (events ++ [⟨process, .createNew contest.lock, answer⟩])
        (Function.update standings process .waiting) := by
    have alike := alike_of_not_created answered missed
    rw [← waits, Function.update_eq_self]
    exact holds.spare settled (.of_alike alike) (alike.isNumbered holds.numbered) leaves
  cases answer with
  | created handle =>
      exact ⟨_, holds.take waits (creates_of_created answered), by rintro ⟨⟩, rfl⟩
  | occupied => exact ⟨_, missed (by simp) ⟨rfl, fun _ => rfl⟩, id, rfl⟩
  | refused => exact ⟨_, missed (by simp) ⟨rfl, fun _ => rfl⟩, id, rfl⟩

/-- A step after which the process waits as before. -/
theorem steps_waiting {request : Request}
    (keeps : ∀ (store : Store) (events : List Event) (standings : Nat → Standing)
      (elapsed : Nat) (answer : request.Answer) (after : Store),
      contest.Invariant store events standings → standings process = .waiting →
      Settled contest.cache store → store.answerAfter elapsed request = (answer, after) →
      contest.discipline.permits events ⟨process, request, answer⟩ →
      contest.Invariant after (events ++ [⟨process, request, answer⟩]) standings) :
    contest.discipline.Steps process request .waiting fun _ later => later = .waiting := by
  intro store events standings elapsed answer after holds waits answered permitted
  have settled := holds.settled_of_waiting waits
  refine ⟨.waiting, ?_, id, rfl⟩
  rw [← waits, Function.update_eq_self]
  exact keeps store events standings elapsed answer after holds waits settled answered permitted

/-- Putting a lock aside, as far as it is reckoned with: nobody else holds it. -/
theorem steps_putAside {aside : Path} (putAside : IsAside contest.lock aside) :
    contest.discipline.Steps process (.rename contest.lock aside) .waiting fun _ later =>
      later = .waiting := by
  refine steps_waiting fun store events standings elapsed answer after holds waits settled
    answered permitted => ?_
  cases answer with
  | false =>
      obtain ⟨alike, -⟩ := alike_of_not_renamed answered
      exact holds.spare settled (.of_alike alike) (alike.isNumbered holds.numbered)
        ⟨rfl, fun _ => rfl⟩
  | true =>
      have free (other : Nat) : (standings other).isHolding = false := by
        by_cases mine : other = process
        · rw [mine, waits]
          rfl
        · have broken : breaks contest.lock ⟨process, .rename contest.lock aside, true⟩ = true := by
            simpa [breaks, Contest.lock] using aside_ne_lock putAside
          have unheld := permitted.1 broken other mine
          rw [holds.orderly.held] at unheld
          rw [Standing.isHolding_eq, unheld]
          rfl
      obtain ⟨number, named, ⟨-, alike⟩ | ⟨-, middle, dropped, placed⟩⟩ :=
        (renames_of_renamed answered).steps
      · exact holds.spare settled (.of_alike alike) (alike.isNumbered holds.numbered)
          ⟨rfl, fun _ => rfl⟩
      · have bounded : ∀ numberToo, some number = some numberToo → numberToo < after.fresh := by
          rintro _ ⟨⟩
          exact Nat.lt_of_lt_of_le (holds.numbered.lt named)
            (Nat.le_trans dropped.fresh placed.fresh)
        refine leave_waiting holds waits free (dropped.same.trans placed.same)
          (placed.isNumbered (dropped.isNumbered holds.numbered (by simp)) bounded)
          ⟨rfl, fun _ => rfl⟩ ?_
        rw [placed.content?_of_ne, dropped.content?_of_ne]
        · exact (place?_ne_of_lastName dropped.placed (lock_ne_cache contest.cache)).symm
        · exact (place?_ne_of_lastName placed.placed (aside_ne_cache putAside)).symm

/-- A lock file can only be put back where there is none. -/
theorem steps_putBack {aside : Path} :
    contest.discipline.Steps process (.link aside contest.lock) .waiting fun _ later =>
      later = .waiting := by
  refine steps_waiting fun store events standings elapsed answer after holds waits settled
    answered _ => ?_
  cases answer with
  | false =>
      have alike := alike_of_not_linked answered
      exact holds.spare settled (.of_alike alike) (alike.isNumbered holds.numbered)
        ⟨rfl, fun _ => rfl⟩
  | true =>
      obtain ⟨vacant, number, named, sets⟩ := sets_of_linked answered
      have bounded : ∀ numberToo, some number = some numberToo → numberToo < after.fresh := by
        rintro _ ⟨⟩
        exact Nat.lt_of_lt_of_le (holds.numbered.lt named) sets.fresh
      exact leave_waiting holds waits (holds.free_of_vacant vacant) sets.same
        (sets.isNumbered holds.numbered bounded) ⟨rfl, fun _ => rfl⟩
        (sets.content?_of_ne
          (place?_ne_of_lastName sets.placed (lock_ne_cache contest.cache)).symm)

theorem steps_removeAside {aside : Path} (putAside : IsAside contest.lock aside) :
    contest.discipline.Steps process (.remove aside) .waiting fun _ later =>
      later = .waiting := by
  refine steps_waiting fun store events standings elapsed answer after holds waits settled
    answered _ => ?_
  cases answer with
  | false =>
      obtain ⟨alike, -⟩ := alike_of_not_removed answered
      exact holds.spare settled (.of_alike alike) (alike.isNumbered holds.numbered)
        ⟨rfl, fun _ => rfl⟩
  | true =>
      have sets := sets_of_removed answered
      have other : aside ≠ contest.lock := by
        rintro rfl
        exact aside_ne_lock putAside rfl
      exact holds.spare settled (.of_sets_aside putAside sets)
        (sets.isNumbered holds.numbered (by simp)) ⟨rfl, fun _ => if_neg other⟩

/-- A step of the holder that leaves the lock and the cache counting for the same. -/
theorem leave_holding {before after : Store} {events : List Event} {event : Event}
    {standings : Nat → Standing} {tokenToo : String} (workToo : Work)
    (holds : contest.Invariant before events standings)
    (holding : standings event.process = .holding file token work)
    (same : SameDirectories before after) (numbered : after.IsNumbered)
    (leaves : LeavesLock contest.lock event)
    (lock : HasLock contest.cache after file tokenToo)
    (works : Works contest.cache after file workToo)
    (replaced : workToo.hasReplaced = work.hasReplaced)
    (recorded :
      (Standing.holding file tokenToo workToo).found?.getD (after.content? contest.cache) =
      (Standing.holding file token work).found?.getD (before.content? contest.cache)) :
    contest.Invariant after (events ++ [event])
      (Function.update standings event.process (.holding file tokenToo workToo)) := by
  obtain ⟨settled, -⟩ := holds.of_holding holding
  have free := holds.free_of_holding
    (show (standings event.process).isHolding = true by rw [holding]; rfl)
  exact holds.leave (.holding file tokenToo workToo) settled same numbered leaves
    (fun other differs => describes_of_same same (free other differs) (holds.describes other))
    ⟨settled.of_same same, lock, works⟩ (by rw [holding]; rfl) (by rw [holding]; rfl)
    (by rw [holding]; exact replaced) fun _ => by rw [holding]; exact recorded

/-- The token is written into the lock file. -/
theorem steps_sign (text : String) :
    contest.discipline.Steps process (.writeHandle file text) (.holding file "" .idle)
      fun done later => done = true ∧ later = .holding file text .idle := by
  intro store events standings elapsed answer after holds holding answered _
  obtain ⟨-, lock, -⟩ := holds.of_holding holding
  cases answer with
  | false =>
      obtain ⟨-, unheld⟩ := alike_of_not_written answered
      exact absurd (unheld.symm.trans lock.signed) (by simp)
  | true =>
      obtain ⟨content, held, fills⟩ := fills_of_written answered
      obtain rfl : content = .text "" := Option.some.inj (held.symm.trans lock.signed)
      refine ⟨_, leave_holding .idle holds holding fills.same
        (fills.isNumbered holds.numbered) ⟨rfl, fun _ => rfl⟩ ⟨?_, fun path named => ?_, ?_⟩
        trivial rfl ?_, by rintro ⟨⟩, rfl, rfl⟩
      · rw [fills.number?, lock.inPlace]
      · rw [fills.same.place?, fills.same.place?]
        exact lock.only path ((fills.number? path).symm.trans named)
      · rw [fills.holds?, if_pos rfl]
        simp [Content.append]
      · exact (fills.content? _).trans (if_neg lock.apart)

/-- The cache is read. -/
theorem steps_readCache :
    contest.discipline.Steps process (.readText contest.cache) (.holding file token .idle)
      fun answer later =>
        match answer with
        | .ok text => later = .holding file token (.read (some (.text text)))
        | .error .missing => later = .holding file token (.read none)
        | .error .unreadable => later = .holding file token .idle := by
  intro store events standings elapsed answer after holds holding answered _
  obtain ⟨-, lock, -⟩ := holds.of_holding holding
  have alike : Alike store (store.answerAfter elapsed (.readText contest.cache)).2 :=
    answerAfter_quiet store elapsed rfl
  rw [answered] at alike
  have keeps (work : Work) (works : Works contest.cache after file work)
      (unread : (Standing.holding file token work).found? = none)
      (replaced : work.hasReplaced = false) :
      contest.Invariant after (events ++ [⟨process, .readText contest.cache, answer⟩])
        (Function.update standings process (.holding file token work)) :=
    leave_holding work holds holding alike.same (alike.isNumbered holds.numbered)
      ⟨rfl, fun _ => rfl⟩ (lock.of_spares (.of_alike alike)) works replaced
      (by rw [unread, alike.content?]; rfl)
  cases answer with
  | ok text =>
      obtain ⟨number, named, held⟩ := answerAfter_readText_ok answered
      refine ⟨_, keeps (.read (some (.text text))) ?_ rfl rfl, by rintro ⟨⟩, rfl⟩
      rw [Works, alike.content?, content?_eq, named, Option.bind_some, held]
  | error fault =>
      cases fault with
      | missing =>
          refine ⟨_, keeps (.read none) ?_ rfl rfl, by rintro ⟨⟩, rfl⟩
          have paused := content?_of_missing (congrArg Prod.fst answered)
          rw [Works, alike.content?, ← (pause_alike store elapsed).content?]
          exact paused
      | unreadable => exact ⟨_, keeps .idle trivial rfl rfl, by rintro ⟨⟩, rfl⟩

/-- A temporary file is made. -/
theorem steps_createTemporary (found : Option Content) (directory : Path) :
    contest.discipline.Steps process (.createTemporary directory)
      (.holding file token (.read found)) fun answer later =>
        match answer with
        | none => later = .holding file token (.read found)
        | some (temporary, number) => ∃ draft : Draft,
            draft.path = temporary ∧ draft.number = number ∧ draft.text = "" ∧
              later = .holding file token (.drafting found draft) := by
  intro store events standings elapsed answer after holds holding answered _
  obtain ⟨-, lock, works⟩ := holds.of_holding holding
  cases answer with
  | none =>
      have alike := alike_of_no_temporary answered
      refine ⟨_, leave_holding (.read found) holds holding alike.same
        (alike.isNumbered holds.numbered) ⟨rfl, fun _ => rfl⟩
        (lock.of_spares (.of_alike alike)) ?_ rfl ?_,
        by rintro ⟨⟩, rfl⟩
      · exact (alike.content? _).trans works
      · exact alike.content? _
  | some made =>
      obtain ⟨temporary, number⟩ := made
      obtain ⟨creates, count, name⟩ := creates_of_createTemporary answered
      have isTemporary : IsTemporary temporary := ⟨directory, count, name⟩
      have apart : number ≠ file := by
        rintro rfl
        exact creates.number?_ne holds.numbered _ lock.inPlace
      have fromLock : store.place? contest.lock ≠ store.place? temporary :=
        (place?_ne_of_lastName creates.placed (temporary_ne_lock contest.cache isTemporary)).symm
      let draft : Draft :=
        { path := temporary, number, text := ""
          atCache := decide (store.place? temporary = store.place? contest.cache) }
      refine ⟨_, leave_holding (.drafting found draft) holds holding creates.same
        (creates.isNumbered holds.numbered) ⟨rfl, fun _ => rfl⟩ ⟨?_, fun path named => ?_, ?_⟩
        ⟨isTemporary, ?_, ?_, apart, ?_, fun away => ?_⟩ rfl ?_, by rintro ⟨⟩, draft, rfl, rfl,
        rfl, rfl⟩
      · exact (creates.number? _).trans ((if_neg fromLock).trans lock.inPlace)
      · rw [creates.number?] at named
        rw [creates.same.place?, creates.same.place?]
        split at named
        · exact absurd (Option.some.inj named) apart
        · exact lock.only path named
      · rw [creates.holds?, if_neg (Ne.symm apart), lock.signed]
      · exact (creates.number? _).trans (if_pos rfl)
      · exact (creates.holds? _).trans (if_pos rfl)
      · rw [creates.same.place?, creates.same.place?]
        exact decide_eq_true_iff
      · have elsewhere : store.place? contest.cache ≠ store.place? temporary :=
          fun same => of_decide_eq_false away same.symm
        have named : after.number? contest.cache = store.number? contest.cache :=
          (creates.number? _).trans (if_neg elsewhere)
        have unnumbered := creates.number?_ne holds.numbered contest.cache
        refine ⟨?_, by rwa [named]⟩
        rw [← works, content?_eq, content?_eq, named]
        refine Option.bind_congr fun numberToo stands => ?_
        rw [creates.holds?, if_neg]
        rintro rfl
        exact unnumbered stands
      · exact works.symm

/-- More text is written into a draft. -/
theorem steps_writeDraft (found : Option Content) (draft : Draft) (text : String) :
    contest.discipline.Steps process (.writeHandle draft.number text)
      (.holding file token (.drafting found draft)) fun done later =>
        done = true ∧ later =
          .holding file token (.drafting found { draft with text := draft.text ++ text }) := by
  intro store events standings elapsed answer after holds holding answered _
  obtain ⟨-, lock, works⟩ := holds.of_holding holding
  cases answer with
  | false =>
      obtain ⟨-, unheld⟩ := alike_of_not_written answered
      exact absurd (unheld.symm.trans works.written) (by simp)
  | true =>
      obtain ⟨content, held, fills⟩ := fills_of_written answered
      obtain rfl : content = .text draft.text := Option.some.inj (held.symm.trans works.written)
      refine ⟨_, leave_holding (.drafting found { draft with text := draft.text ++ text })
        holds holding fills.same (fills.isNumbered holds.numbered) ⟨rfl, fun _ => rfl⟩
        ⟨?_, fun path named => ?_, ?_⟩
        ⟨works.temporary, ?_, ?_, works.apart, ?_, fun away => ?_⟩ rfl rfl, id, rfl, rfl⟩
      · rw [fills.number?, lock.inPlace]
      · rw [fills.same.place?, fills.same.place?]
        exact lock.only path ((fills.number? path).symm.trans named)
      · rw [fills.holds?, if_neg (Ne.symm works.apart), lock.signed]
      · rw [fills.number?, works.inPlace]
      · exact (fills.holds? _).trans (if_pos rfl)
      · rw [fills.same.place?, fills.same.place?]
        exact works.atCache
      · obtain ⟨content, named⟩ := works.found away
        rw [fills.content?, if_neg named, fills.number?]
        exact ⟨content, named⟩

/-- The draft is put in the place of the cache, if the cache can have a place. -/
theorem steps_replace (found : Option Content) (draft : Draft)
    (fits : contest.accessible → contest.effect process found = some (.text draft.text)) :
    contest.discipline.Steps process (.rename draft.path contest.cache)
      (.holding file token (.drafting found draft)) fun done later =>
        later = .holding file token (if done then .replaced else .discarding draft.path) := by
  intro store events standings elapsed answer after holds holding answered _
  obtain ⟨-, lock, works⟩ := holds.of_holding holding
  cases answer with
  | true =>
      exact ⟨_, holds.replace holding (renames_of_renamed answered) fits, id, rfl⟩
  | false =>
      obtain ⟨alike, unnumbered | unplaced⟩ := alike_of_not_renamed answered
      · exact absurd (unnumbered.symm.trans works.inPlace) (by simp)
      · have apart : store.place? draft.path ≠ store.place? contest.cache := by
          intro same
          have named := works.inPlace
          rw [Store.number?, same, unplaced] at named
          cases named
        have away : draft.atCache = false := by
          rw [← Bool.not_eq_true, works.atCache]
          exact apart
        refine ⟨_, leave_holding (.discarding draft.path) holds holding alike.same
          (alike.isNumbered holds.numbered) ⟨rfl, fun _ => rfl⟩ (lock.of_spares (.of_alike alike))
          ⟨works.temporary, ?_⟩ rfl ?_, id, rfl⟩
        · rw [alike.same.place?, alike.same.place?]
          exact apart
        · exact (alike.content? _).trans (works.found away).1

/-- A draft that could not take the place of the cache is removed. -/
theorem steps_discard (temporary : Path) :
    contest.discipline.Steps process (.remove temporary)
      (.holding file token (.discarding temporary)) fun _ later =>
        later = .holding file token .failed := by
  intro store events standings elapsed answer after holds holding answered _
  obtain ⟨-, lock, isTemporary, apart⟩ := holds.of_holding holding
  have other : temporary ≠ contest.lock := by
    rintro rfl
    exact temporary_ne_lock contest.cache isTemporary rfl
  cases answer with
  | false =>
      obtain ⟨alike, -⟩ := alike_of_not_removed answered
      exact ⟨_, leave_holding .failed holds holding alike.same
        (alike.isNumbered holds.numbered) ⟨rfl, fun _ => rfl⟩
        (lock.of_spares (.of_alike alike)) trivial rfl
        (alike.content? _), id, rfl⟩
  | true =>
      have sets := sets_of_removed answered
      have fromLock : store.place? contest.lock ≠ store.place? temporary :=
        (place?_ne_of_lastName sets.placed (temporary_ne_lock contest.cache isTemporary)).symm
      refine ⟨_, leave_holding .failed holds holding sets.same
        (sets.isNumbered holds.numbered (by simp)) ⟨rfl, fun _ => if_neg other⟩
        ⟨?_, fun path named => ?_, ?_⟩ trivial rfl (sets.content?_of_ne (Ne.symm apart)), id, rfl⟩
      · exact (sets.number?_of_ne fromLock).trans lock.inPlace
      · rw [sets.number?] at named
        rw [sets.same.place?, sets.same.place?]
        split at named
        · cases named
        · exact lock.only path named
      · rw [sets.holds?, lock.signed]

/-- The lock is given back. -/
theorem steps_release (ended : (Standing.holding file token work).found? = none) :
    contest.discipline.Steps process (.remove contest.lock) (.holding file token work)
      fun _ later => later = .gone work := by
  intro store events standings elapsed answer after holds holding answered _
  obtain ⟨-, lock, -⟩ := holds.of_holding holding
  cases answer with
  | false =>
      obtain ⟨-, vacant⟩ := alike_of_not_removed answered
      exact absurd (vacant.symm.trans lock.inPlace) (by simp)
  | true => exact ⟨_, holds.release holding ended (sets_of_removed answered), id, rfl⟩

theorem obeys_staleToken (path : Path) (staleAfter : Nat) :
    contest.discipline.Obeys process (Lock.staleToken? path staleAfter) .waiting
      fun _ later => later = .waiting := by
  rw [Lock.staleToken?]
  apply Discipline.Obeys.ask
  apply (steps_quiet rfl (.inl rfl)).mono
  rintro answer later ⟨rfl, -⟩
  cases answer with
  | none => exact .pure rfl
  | some age =>
      dsimp only
      split
      · exact .pure rfl
      · apply Discipline.Obeys.ask
        apply (steps_quiet rfl (.inl rfl)).mono
        rintro result later ⟨rfl, -⟩
        cases result with
        | ok token => exact .pure rfl
        | error fault => exact .pure rfl

theorem obeys_takeOver (seen : String) :
    contest.discipline.Obeys process (Lock.takeOver contest.lock seen) .waiting
      fun _ later => later = .waiting := by
  rw [Lock.takeOver]
  apply Discipline.Obeys.ask
  apply (steps_quiet rfl (.inl rfl)).mono
  rintro token later ⟨rfl, store, -, rfl, -⟩
  have putAside : IsAside contest.lock (Lock.asidePath contest.lock store.token.1) :=
    asidePath_isAside contest.lock (token_plain store)
  apply Discipline.Obeys.ask
  apply (steps_putAside putAside).mono
  rintro done later rfl
  have removes : contest.discipline.Obeys process
      (discard (.step (.remove (Lock.asidePath contest.lock store.token.1)))) .waiting
      fun _ later => later = .waiting := .discard (.step (steps_removeAside putAside))
  split
  · apply Discipline.Obeys.ask
    apply (steps_quiet rfl (.inl rfl)).mono
    rintro result later ⟨rfl, -⟩
    cases result with
    | ok found =>
        dsimp only
        split
        · exact removes
        · refine .bind (.discard (.step (steps_putBack.mono ?_)))
          rintro linked later rfl
          exact removes
    | error fault =>
        refine .bind (.discard (.step (steps_putBack.mono ?_)))
        rintro linked later rfl
        exact removes
  · exact .pure rfl

theorem attempts_sign :
    contest.discipline.Attempts process (Lock.sign contest.lock file) (.holding file "" .idle)
      (fun lock later => lock.path = contest.lock ∧ later = .holding file lock.token .idle)
      fun _ => False := by
  rw [Lock.sign]
  apply Discipline.Attempts.ask
  apply (steps_quiet rfl (.inr rfl)).mono
  rintro token later ⟨rfl, -⟩
  apply Discipline.Attempts.ask
  apply (steps_sign token).mono
  rintro done later ⟨rfl, rfl⟩
  exact .pure ⟨rfl, rfl⟩

/-- However often a process tries, it waits as before unless it has taken the lock. -/
theorem attempts_tryFor (policy : RetryPolicy) (attempts : Nat) :
    contest.discipline.Attempts process (Lock.tryFor contest.lock policy attempts) .waiting
      (fun taken later =>
        match taken with
        | none => later = .waiting
        | some lock =>
            lock.path = contest.lock ∧ ∃ file, later = .holding file lock.token .idle)
      fun later => later = .waiting := by
  induction attempts with
  | zero => exact .pure rfl
  | succ attempts ih =>
      rw [Lock.tryFor]
      apply Discipline.Attempts.ask
      apply steps_createLock.mono
      intro answer later stands
      cases answer with
      | created handle =>
          obtain rfl := stands
          apply Discipline.Attempts.bind
          refine attempts_sign.mono (fun lock later signed => ?_)
            fun _ impossible => impossible.elim
          exact .pure ⟨signed.1, handle, signed.2⟩
      | refused =>
          obtain rfl := stands
          exact .throw rfl
      | occupied =>
          obtain rfl := stands
          apply Discipline.Attempts.after
          apply (obeys_staleToken contest.lock policy.staleAfter).mono
          rintro stale later rfl
          cases stale with
          | some seen =>
              apply Discipline.Attempts.after
              apply (obeys_takeOver seen).mono
              rintro _ later rfl
              exact ih
          | none =>
              dsimp only
              split
              · exact ih
              · apply Discipline.Attempts.ask
                apply (steps_quiet rfl (.inl rfl)).mono
                rintro _ later ⟨rfl, -⟩
                exact ih

/-- The holder finds its own token in the lock file, and removes it. -/
theorem obeys_release {lock : Lock} (path : lock.path = contest.lock)
    (ended : (Standing.holding file lock.token work).found? = none) :
    contest.discipline.Obeys process lock.release (.holding file lock.token work)
      fun _ later => later = .gone work := by
  rw [Lock.release, path]
  apply Discipline.Obeys.ask
  apply (steps_quiet rfl (.inr rfl)).mono
  rintro answer later ⟨rfl, store, described, answered, -⟩
  have found : store.readText contest.lock = .ok lock.token :=
    readText_eq_ok_iff.mpr ⟨file, described.2.1.inPlace, described.2.1.signed⟩
  obtain rfl : Except.ok lock.token = answer := found.symm.trans answered
  dsimp only
  rw [if_pos rfl]
  exact .discard (.step (steps_release ended))

theorem attempts_readLines (policy : RetryPolicy) :
    contest.discipline.Attempts process (Cache.readLines ⟨contest.cache, policy⟩)
      (.holding file token .idle)
      (fun lines later => ∃ found, lines = Cache.linesOf found ∧
        later = .holding file token (.read found))
      fun later => later = .holding file token .idle := by
  rw [Cache.readLines]
  apply Discipline.Attempts.ask
  apply steps_readCache.mono
  intro answer later stands
  cases answer with
  | ok text => exact .pure ⟨_, rfl, stands⟩
  | error fault =>
      cases fault with
      | missing => exact .pure ⟨_, rfl, stands⟩
      | unreadable => exact .throw stands

theorem obeys_directoriesAmong (holding : standing.isHolding = true) (paths : List String) :
    contest.discipline.Obeys process (Imports.directoriesAmong paths) standing
      fun present later => later = standing ∧
        (contest.accessible → present = paths.filter contest.isDirectory) := by
  induction paths with
  | nil => exact .pure ⟨rfl, fun _ => rfl⟩
  | cons path rest ih =>
      rw [Imports.directoriesAmong]
      apply Discipline.Obeys.ask
      apply (steps_quiet rfl (.inr holding)).mono
      rintro answer later ⟨rfl, store, -, rfl, known⟩
      apply Discipline.Obeys.bind
      apply ih.mono
      rintro others later ⟨rfl, same⟩
      refine .pure ⟨rfl, fun accessible => ?_⟩
      rw [same accessible, answerNow]
      dsimp only
      rw [known accessible, List.filter_cons]

theorem obeys_record (holding : standing.isHolding = true) (merge : Merge) :
    contest.discipline.Obeys process (merge.imports.record? merge.now) standing
      fun record later => later = standing ∧
        (contest.accessible → record = merge.record? contest.isDirectory) := by
  rw [Imports.record?]
  apply Discipline.Obeys.bind
  apply (obeys_directoriesAmong holding merge.imports.candidates).mono
  rintro present later ⟨rfl, same⟩
  refine .pure ⟨rfl, fun accessible => ?_⟩
  rw [same accessible]
  exact Record.ofImports?_filter contest.isDirectory merge.imports merge.now

theorem attempts_writeLines (found : Option Content) (draft : Draft) (lines : List String) :
    contest.discipline.Attempts process (Cache.writeLines draft.path draft.number lines)
      (.holding file token (.drafting found draft))
      (fun _ later => later = .holding file token
        (.drafting found { draft with text := draft.text ++ Cache.textOf lines }))
      fun _ => False := by
  induction lines generalizing draft with
  | nil => exact .pure (by simp [Cache.textOf])
  | cons line rest ih =>
      have whole : draft.text ++ Cache.textOf (line :: rest) =
          draft.text ++ (line ++ "\n") ++ Cache.textOf rest := by
        simp only [Cache.textOf_cons, String.append_assoc]
      rw [Cache.writeLines, whole]
      apply Discipline.Attempts.bind
      apply Discipline.Attempts.must
      apply Discipline.Obeys.step
      apply (steps_writeDraft found draft (line ++ "\n")).mono
      rintro done later ⟨rfl, rfl⟩
      exact ih { draft with text := draft.text ++ (line ++ "\n") }

/-- A draft with all lines takes the place of the cache, or is left to be removed. -/
theorem attempts_fillTemporary (policy : RetryPolicy) (found : Option Content) {draft : Draft}
    (blank : draft.text = "") {lines : List String}
    (fits : contest.accessible →
      contest.effect process found = some (.text (Cache.textOf lines))) :
    contest.discipline.Attempts process
      (Cache.fillTemporary ⟨contest.cache, policy⟩ draft.path draft.number lines)
      (.holding file token (.drafting found draft))
      (fun _ later => later = .holding file token .replaced)
      fun later => later = .holding file token (.discarding draft.path) := by
  rw [Cache.fillTemporary]
  apply Discipline.Attempts.bind
  refine (attempts_writeLines found draft lines).mono (fun _ later stands => ?_)
    fun _ impossible => impossible.elim
  subst stands
  rw [blank, String.empty_append]
  apply Discipline.Attempts.must
  apply Discipline.Obeys.step
  refine (steps_replace found { draft with text := Cache.textOf lines } fits).mono
    fun done later stands => ?_
  cases done with
  | true => exact stands
  | false => exact stands

/-- What a merge ended with goes with the progress of its process. -/
structure Fits (work : Work) (result : Except Failure MergeOutcome) : Prop where
  replaced : work.hasReplaced = true ↔ result = .ok .updated
  drafted : work.hasDrafted = true → result ≠ .ok .unchanged ∧ result ≠ .ok .skipped

theorem attempts_replace (policy : RetryPolicy) (found : Option Content) {lines : List String}
    (fits : contest.accessible →
      contest.effect process found = some (.text (Cache.textOf lines))) :
    contest.discipline.Attempts process (Cache.replace ⟨contest.cache, policy⟩ lines)
      (.holding file token (.read found))
      (fun _ later => later = .holding file token .replaced)
      fun later => later = .holding file token (.read found) ∨
        later = .holding file token .failed := by
  rw [Cache.replace]
  apply Discipline.Attempts.ask
  apply (steps_createTemporary found _).mono
  intro answer later stands
  cases answer with
  | none => exact .throw (.inl stands)
  | some made =>
      obtain ⟨temporary, number⟩ := made
      obtain ⟨draft, rfl, rfl, blank, rfl⟩ := stands
      apply Discipline.Attempts.tryCatch
      refine (attempts_fillTemporary policy found blank fits).mono (fun _ _ => id) ?_
      rintro later rfl failure
      apply Discipline.Attempts.bind
      apply Discipline.Attempts.discard
      apply Discipline.Attempts.lift
      apply Discipline.Obeys.step
      apply (steps_discard draft.path).mono
      rintro done later rfl
      exact .throw (.inr rfl)

theorem obeys_mergeHeld (merge : Merge) (policy : RetryPolicy)
    (effect : contest.effect process = merge.effect contest.isDirectory) :
    contest.discipline.Obeys process
      (Cache.mergeHeld ⟨contest.cache, policy⟩ merge.imports merge.now).run
      (.holding file token .idle)
      fun result later => ∃ work, later = .holding file token work ∧ later.found? = none ∧
        Fits work result := by
  suffices attempts : contest.discipline.Attempts process
      (Cache.mergeHeld ⟨contest.cache, policy⟩ merge.imports merge.now)
      (.holding file token .idle)
      (fun outcome later => ∃ work, later = .holding file token work ∧ later.found? = none ∧
        Fits work (.ok outcome))
      fun later => ∃ work, later = .holding file token work ∧ later.found? = none ∧
        work.hasReplaced = false by
    refine Discipline.Obeys.mono attempts fun result later ends => ?_
    cases result with
    | ok outcome => exact ends
    | error failure =>
        obtain ⟨work, stands, unread, unreplaced⟩ := ends
        exact ⟨work, stands, unread, by simp [unreplaced], fun _ => by simp⟩
  rw [Cache.mergeHeld]
  apply Discipline.Attempts.bind
  refine (attempts_readLines policy).mono ?_ ?_
  · rintro lines later ⟨found, rfl, rfl⟩
    apply Discipline.Attempts.after
    apply (obeys_record rfl merge).mono
    rintro record later ⟨rfl, known⟩
    cases record with
    | none => exact .pure ⟨.read found, rfl, rfl, by simp [Work.hasReplaced], by rintro ⟨⟩⟩
    | some record =>
        apply Discipline.Attempts.bind
        have fits (accessible : contest.accessible) : contest.effect process found =
            some (.text (Cache.textOf (Cache.replaceLine (Cache.linesOf found) record))) := by
          rw [effect, Merge.effect, ← known accessible]
        refine (attempts_replace policy found fits).mono ?_ ?_
        · rintro _ later rfl
          exact .pure ⟨.replaced, rfl, rfl, by simp [Work.hasReplaced], fun _ => by simp⟩
        · rintro later (rfl | rfl)
          · exact ⟨.read found, rfl, rfl, rfl⟩
          · exact ⟨.failed, rfl, rfl, rfl⟩
  · rintro later rfl
    exact ⟨.idle, rfl, rfl, rfl⟩

/-- Where a process starts: it has directories to make if the cache is in any. -/
def startIn (cache : Path) : Standing :=
  if cache.properParent?.isSome then .arriving else .waiting

/-- A process ends without the lock, and with an outcome that goes with its progress. -/
def Ends (result : Except Failure MergeOutcome) (standing : Standing) : Prop :=
  standing.isHolding = false ∧ Fits standing.work result

theorem steps_arrive {parent : Path} (named : contest.cache.properParent? = some parent) :
    contest.discipline.Steps process (.makeDirectories parent) .arriving fun made later =>
      later = if made then .waiting else .arriving := by
  intro store events standings elapsed answer after holds arrives answered permitted
  have succeeds (accessible : contest.accessible) : answer = true := by
    simpa [lacksDirectories] using permitted.2 accessible
  refine ⟨_, holds.arrive arrives named answered succeeds, ?_, rfl⟩
  rintro ⟨⟩

/-- The part of a merge for which the directories of the cache have to be there. -/
theorem attempts_contend (merge : Merge)
    (effect : contest.effect process = merge.effect contest.isDirectory) :
    contest.discipline.Attempts process
      (do
        match ← Lock.acquire contest.cache merge.policy with
        | none => return .skipped
        | some lock =>
            let outcome ← ExceptT.lift
              (Cache.mergeHeld ⟨contest.cache, merge.policy⟩ merge.imports merge.now).run
            lock.release
            liftExcept outcome)
      .waiting (fun outcome later => Ends (.ok outcome) later)
      fun later => later.isHolding = false ∧ later.work.hasReplaced = false := by
  apply Discipline.Attempts.bind
  refine (attempts_tryFor merge.policy merge.policy.attempts).mono ?_ ?_
  · intro taken later stands
    cases taken with
    | none =>
        obtain rfl := stands
        exact .pure ⟨rfl, by simp [Standing.work, Work.hasReplaced], by rintro ⟨⟩⟩
    | some lock =>
        obtain ⟨path, file, rfl⟩ := stands
        apply Discipline.Attempts.bind
        apply Discipline.Attempts.lift
        apply (obeys_mergeHeld merge merge.policy effect).mono
        rintro outcome later ⟨work, rfl, ended, fits⟩
        apply Discipline.Attempts.after
        apply (obeys_release path ended).mono
        rintro _ later rfl
        cases outcome with
        | ok outcome => exact .pure ⟨rfl, fits⟩
        | error failure => exact .throw ⟨rfl, by simpa [Standing.work] using fits.replaced⟩
  · rintro later rfl
    exact ⟨rfl, rfl⟩

/-- A merge keeps what the contending processes hold on to. -/
theorem obeys_merge (merge : Merge)
    (effect : contest.effect process = merge.effect contest.isDirectory) :
    contest.discipline.Obeys process (merge.program contest.cache) (startIn contest.cache)
      Ends := by
  suffices attempts : contest.discipline.Attempts process
      (Cache.merge ⟨contest.cache, merge.policy⟩ merge.imports merge.now)
      (startIn contest.cache) (fun outcome later => Ends (.ok outcome) later)
      fun later => later.isHolding = false ∧ later.work.hasReplaced = false by
    refine Discipline.Obeys.mono attempts fun result later ends => ?_
    cases result with
    | ok outcome => exact ends
    | error failure =>
        obtain ⟨free, unreplaced⟩ := ends
        exact ⟨free, by simp [unreplaced], fun _ => by simp⟩
  rw [Cache.merge, startIn]
  cases named : contest.cache.properParent? with
  | none => exact attempts_contend merge effect
  | some parent =>
      apply Discipline.Attempts.bind
      apply Discipline.Attempts.must
      apply Discipline.Obeys.step
      apply (steps_arrive named).mono
      rintro made later rfl
      cases made with
      | true => exact attempts_contend merge effect
      | false => exact ⟨rfl, rfl⟩

end Contest

end JavaStructure.Dependencies
