/-
# Updates one after another

Any number of processes update one cache side by side, in whatever interleaving. As
long as no lock is taken away from the process that holds it, at most one process at a
time holds the lock, and what the cache holds in the end is what the updates would have
made of it one after another, in the order in which their locks were taken.
-/

import JavaStructure.Proofs.Dependencies.Obedience

namespace JavaStructure

/-- What a process ended with, if it has ended. -/
def System.outcome? {α : Type} (system : System α) (process : Nat) : Option α :=
  match system.programs[process]? with
  | some (.done value) => some value
  | _ => none

namespace Dependencies

open Store

/-- Merges of one cache before any of them has begun. -/
def contending (cache : Path) (merges : List Merge) (start : Store) :
    System (Except Failure MergeOutcome) where
  store := start
  programs := merges.map (Merge.program cache)

/-- No lock is put aside while another process holds it. Only a lock that was judged
stale is put aside. -/
def SparesHolders (lock : Path) (events : List Event) : Prop :=
  ∀ front event, front ++ [event] <+: events → breaks lock event = true →
    ∀ other, other ≠ event.process → heldFile? lock other front = none

/-- A process that has created the lock file and not yet removed it is the only one, and
its file is in the place of the lock. -/
def HoldersSafe {α : Type} (lock : Path) (system : System α) : Prop :=
  ∀ process file, heldFile? lock process system.events = some file →
    system.store.number? lock = some file ∧
      ∀ other fileToo, heldFile? lock other system.events = some fileToo → other = process

/-- No attempt to make the directories of the cache failed. -/
def Accessible (events : List Event) : Prop :=
  ∀ event ∈ events, lacksDirectories event = false

/-- The updates that were made, in the order in which the lock was taken for them. -/
def updatesMade (lock : Path) (merges : List Merge)
    (system : System (Except Failure MergeOutcome)) : List Merge :=
  (takers lock system.events).filterMap fun process =>
    match system.outcome? process with
    | some (.ok .updated) => merges[process]?
    | _ => none

theorem SparesHolders.of_prefix {lock : Path} {events eventsToo : List Event}
    (spared : SparesHolders lock eventsToo) (fewer : events <+: eventsToo) :
    SparesHolders lock events :=
  fun front event starts => spared front event (starts.trans fewer)

theorem SparesHolders.of_unbroken {lock : Path} {events : List Event}
    (unbroken : ∀ event ∈ events, breaks lock event = false) : SparesHolders lock events := by
  intro front event starts broken
  rw [unbroken event (starts.subset (by simp))] at broken
  cases broken

/-- The contest for a cache, with the updates that the processes are to make. -/
def contestFor (cache : Path) (merges : List Merge) (start : Store) (accessible : Prop) :
    Contest where
  cache
  effect process content :=
    match merges[process]? with
    | some merge => merge.effect (fun text => (opened cache start).isDirectory ⟨text⟩) content
    | none => content
  isDirectory text := (opened cache start).isDirectory ⟨text⟩
  start := contentIn cache start
  accessible

namespace Contest

variable {cache : Path} {merges : List Merge} {start : Store} {accessible : Prop}
variable {standings : Nat → Standing} {system : System (Except Failure MergeOutcome)}

theorem startIn_isHolding (cache : Path) : (startIn cache).isHolding = false := by
  rw [startIn]
  split <;> rfl

theorem startIn_hasTaken (cache : Path) : (startIn cache).hasTaken = false := by
  rw [startIn]
  split <;> rfl

/-- Before any merge has begun, all of them keep the discipline. -/
theorem contending_keeps (merges : List Merge) (accessible : Prop)
    (numbered : start.IsNumbered) :
    (contestFor cache merges start accessible).discipline.Keeps (contending cache merges start)
      (fun _ => startIn cache) fun _ => Ends := by
  have unread : (startIn cache).found? = none := by
    rw [startIn]
    split <;> rfl
  have unheld : (startIn cache).file? = none := by
    rw [startIn]
    split <;> rfl
  refine ⟨⟨numbered, fun _ => ?_,
    ⟨fun _ => unheld.symm, List.nodup_nil, fun _ => ?_, fun _ holding => ?_⟩, fun _ _ => rfl,
    fun _ _ _ => ?_⟩, fun process program found => ?_⟩
  · rw [startIn]
    split
    · trivial
    · next none =>
        intro parent named
        simp [contestFor] at named
        simp [named] at none
  · rw [startIn_hasTaken]
    simp [takers, contending]
  · rw [startIn_isHolding] at holding
    cases holding
  · rw [Contest.recorded, unread]
    rfl
  · obtain ⟨merge, foundMerge, rfl⟩ : ∃ merge, merges[process]? = some merge ∧
        merge.program cache = program := by
      simpa [contending] using found
    have effect : (contestFor cache merges start accessible).effect process =
        merge.effect (contestFor cache merges start accessible).isDirectory := by
      funext content
      simp [contestFor, foundMerge]
    exact obeys_merge merge effect

/-- The steps of an interleaving that is reckoned with are permitted. -/
theorem permitsAll (merges : List Merge) (start : Store) {events : List Event}
    (spared : SparesHolders (Lock.pathFor cache) events)
    (made : accessible → Accessible events) :
    (contestFor cache merges start accessible).discipline.PermitsAll events :=
  fun front event starts => ⟨spared front event starts,
    fun accessible => made accessible event (starts.subset (by simp))⟩

/-- The discipline is kept in every interleaving that spares the holders. -/
theorem contending_follow (merges : List Merge) (accessible : Prop) (numbered : start.IsNumbered)
    {schedule : List Turn}
    (spared : SparesHolders (Lock.pathFor cache)
      ((contending cache merges start).follow schedule).events)
    (made : accessible → Accessible ((contending cache merges start).follow schedule).events) :
    ∃ standings, (contestFor cache merges start accessible).discipline.Keeps
        ((contending cache merges start).follow schedule) standings (fun _ => Ends) ∧
      ∀ process, merges[process]? = none → standings process = startIn cache := by
  obtain ⟨standings, keeps, rising⟩ := (contending_keeps merges accessible numbered).follow
    schedule (permitsAll merges start spared made)
  refine ⟨standings, keeps, fun process absent => (rising process).2 ?_⟩
  simpa [contending] using absent

/-- A process that has ended stands where its outcome says. -/
theorem ends_of_outcome (keeps : (contestFor cache merges start accessible).discipline.Keeps
      system standings fun _ => Ends) {process : Nat} {result : Except Failure MergeOutcome}
    (ended : system.outcome? process = some result) : Ends result (standings process) := by
  rw [System.outcome?] at ended
  split at ended
  · next value found =>
      obtain rfl := Option.some.inj ended
      exact keeps.obeys process _ found
  · cases ended

theorem holding_of_held {lock : Path} {events : List Event} {process file : Nat}
    (orderly : Orderly lock events standings) (held : heldFile? lock process events = some file) :
    ∃ token work, standings process = .holding file token work := by
  rw [orderly.held] at held
  revert held
  cases standings process with
  | holding fileToo token work =>
      rintro ⟨⟩
      exact ⟨token, work, rfl⟩
  | arriving | waiting | gone => rintro ⟨⟩

end Contest

open Contest

variable {cache : Path} {merges : List Merge} {start : Store}

theorem holdersSafe_of_spared (numbered : start.IsNumbered) {schedule : List Turn}
    (spared : SparesHolders (Lock.pathFor cache)
      ((contending cache merges start).follow schedule).events) :
    HoldersSafe (Lock.pathFor cache) ((contending cache merges start).follow schedule) := by
  obtain ⟨standings, keeps, -⟩ := contending_follow merges False numbered spared False.elim
  have invariant := keeps.invariant
  intro process file held
  obtain ⟨token, work, holding⟩ := holding_of_held invariant.orderly held
  refine ⟨(invariant.of_holding holding).2.1.inPlace, fun other fileToo heldToo => ?_⟩
  obtain ⟨tokenToo, workToo, holdingToo⟩ := holding_of_held invariant.orderly heldToo
  exact invariant.orderly.exclusive (by rw [holdingToo]; rfl) (by rw [holding]; rfl)

/-- After all merges have ended, the cache holds what the updates made one after another
of what it held, in the order in which the lock was taken. -/
theorem content_eq_foldl_updates (numbered : start.IsNumbered) {schedule : List Turn}
    (spared : SparesHolders (Lock.pathFor cache)
      ((contending cache merges start).follow schedule).events)
    (made : Accessible ((contending cache merges start).follow schedule).events)
    (ended : ∀ process < merges.length,
      (((contending cache merges start).follow schedule).outcome? process).isSome) :
    contentIn cache ((contending cache merges start).follow schedule).store =
      (updatesMade (Lock.pathFor cache) merges
          ((contending cache merges start).follow schedule)).foldl
        (fun content merge =>
          merge.effect (fun text => (opened cache start).isDirectory ⟨text⟩) content)
        (contentIn cache start) := by
  obtain ⟨standings, keeps, absent⟩ :=
    contending_follow merges True numbered spared fun _ => made
  generalize (contending cache merges start).follow schedule = reached at keeps ended
  have invariant := keeps.invariant
  have free (process : Nat) : (standings process).found? = none := by
    cases found : (standings process).found? with
    | none => rfl
    | some content =>
        have holding := Standing.isHolding_of_found found
        by_cases inside : process < merges.length
        · obtain ⟨result, outcome⟩ := Option.isSome_iff_exists.mp (ended process inside)
          rw [(ends_of_outcome keeps outcome).1] at holding
          cases holding
        · rw [absent process (List.getElem?_eq_none (Nat.le_of_not_lt inside)),
            startIn_isHolding] at holding
          cases holding
  have matched := invariant.content trivial 0 fun other _ => free other
  rw [Contest.recorded, free 0, Option.getD_none] at matched
  refine matched.trans ?_
  rw [updatesMade, List.foldl_filterMap, Contest.expected]
  refine List.foldl_ext _ _ _ fun content process inside => ?_
  have taken := (invariant.orderly.taken process).mp inside
  by_cases present : process < merges.length
  · obtain ⟨result, outcome⟩ := Option.isSome_iff_exists.mp (ended process present)
    have fits := (ends_of_outcome keeps outcome).2.replaced
    rw [outcome]
    rcases result with failure | (_ | _ | _)
    · simp [fits]
    · simp [fits, contestFor, List.getElem?_eq_getElem present]
    · simp [fits]
    · simp [fits]
  · rw [absent process (List.getElem?_eq_none (Nat.le_of_not_lt present)),
      startIn_hasTaken] at taken
    cases taken

/-- While a draft is written, the cache is the draft or what was found before it. -/
theorem contentIn_of_drafting {store : Store} {file : Nat} {token : String}
    {found : Option Content} {draft : Draft}
    (describes : Describes cache store (.holding file token (.drafting found draft))) :
    contentIn cache store = if draft.atCache then some (.text draft.text) else found := by
  obtain ⟨settled, -, works⟩ := describes
  rw [contentIn_of_settled settled]
  split
  · next atCache =>
      have named := works.inPlace
      rw [Store.number?, works.atCache.mp atCache, ← Store.number?] at named
      rw [content?_eq, named, Option.bind_some, works.written]
  · next away => exact (works.found (by simpa using away)).1

theorem process_of_taker {lock : Path} {event : Event} {process : Nat}
    (takes : taker? lock event = some process) : process = event.process := by
  unfold taker? at takes
  split at takes
  · split at takes
    · exact (Option.some.inj takes).symm
    · cases takes
  · cases takes

theorem Work.hasReplaced_of_not_drafted {work : Work} (undrafted : work.hasDrafted = false) :
    work.hasReplaced = false := by
  cases work with
  | idle | read => rfl
  | drafting | discarding | failed | replaced => cases undrafted

theorem Standing.found?_of_not_drafted {standing : Standing}
    (undrafted : standing.work.hasDrafted = false) : standing.found? = none := by
  cases standing with
  | arriving | waiting | gone => rfl
  | holding file token work =>
      cases work with
      | idle | read => rfl
      | drafting | discarding | failed | replaced => cases undrafted

/-- A turn of a process that makes no temporary file leaves the cache as it is. -/
theorem content_turn (contest : Contest) {system : System (Except Failure MergeOutcome)}
    {standings : Nat → Standing} {turn : Turn} {later : Standing}
    {ends : Nat → Except Failure MergeOutcome → Standing → Prop} (accessible : contest.accessible)
    (keeps : contest.discipline.Keeps system standings ends)
    (keepsTurn : contest.discipline.Keeps (system.turn turn)
      (Function.update standings turn.process later) ends)
    (undrafted : (standings turn.process).work.hasDrafted = false)
    (undraftedToo : later.work.hasDrafted = false) :
    contentIn contest.cache (system.turn turn).store = contentIn contest.cache system.store := by
  obtain ⟨request, next, answer, store, -, -, taken⟩ | idle := system.turn_cases turn
  swap
  · rw [idle]
  rw [taken] at keepsTurn ⊢
  have before := keeps.invariant
  have after := keepsTurn.invariant
  by_cases drafting : ∃ other, other ≠ turn.process ∧ (standings other).found? ≠ none
  · obtain ⟨other, differs, drafts⟩ := drafting
    have described := before.describes other
    have describedToo := after.describes other
    rw [Function.update_of_ne differs] at describedToo
    revert drafts described describedToo
    cases standings other with
    | arriving | waiting | gone => exact fun drafts => absurd rfl drafts
    | holding file token work =>
        cases work with
        | drafting found draft =>
            intro _ described describedToo
            rw [contentIn_of_drafting described, contentIn_of_drafting describedToo]
        | idle | read | discarding | failed | replaced => exact fun drafts => absurd rfl drafts
  · have alone (other : Nat) (differs : other ≠ turn.process) :
        (standings other).found? = none := by
      by_contra drafts
      exact drafting ⟨other, differs, drafts⟩
    have replaced : later.work.hasReplaced = (standings turn.process).work.hasReplaced := by
      rw [Work.hasReplaced_of_not_drafted undrafted, Work.hasReplaced_of_not_drafted undraftedToo]
    have matched := before.content accessible turn.process alone
    have matchedToo := after.content accessible turn.process fun other differs => by
      rw [Function.update_of_ne differs]
      exact alone other differs
    rw [Contest.recorded, Standing.found?_of_not_drafted undrafted] at matched
    rw [Contest.recorded, Function.update_self, Standing.found?_of_not_drafted undraftedToo,
      takers_concat] at matchedToo
    refine matchedToo.trans (Eq.trans ?_ matched.symm)
    cases takes : taker? contest.lock ⟨turn.process, request, answer⟩ with
    | none => rw [Option.toList_none, List.append_nil, contest.expected_update replaced]
    | some process =>
        obtain rfl := process_of_taker takes
        rw [Option.toList_some, contest.expected_concat, Function.update_self,
          Work.hasReplaced_of_not_drafted undraftedToo, contest.expected_update replaced]
        rfl

/-- A merge that was skipped or had nothing to write changes the cache in none of its
steps. -/
theorem content_of_not_updated (numbered : start.IsNumbered) {front back : List Turn} {turn : Turn}
    (spared : SparesHolders (Lock.pathFor cache)
      ((contending cache merges start).follow (front ++ turn :: back)).events)
    (made : Accessible ((contending cache merges start).follow (front ++ turn :: back)).events)
    {outcome : MergeOutcome} (ended : ((contending cache merges start).follow
      (front ++ turn :: back)).outcome? turn.process = some (.ok outcome))
    (other : outcome ≠ .updated) :
    contentIn cache ((contending cache merges start).follow (front ++ [turn])).store =
      contentIn cache ((contending cache merges start).follow front).store := by
  let contest := contestFor cache merges start True
  have permitted : contest.discipline.PermitsAll
      ((contending cache merges start).follow (front ++ turn :: back)).events :=
    permitsAll merges start spared fun _ => made
  have whole : (contending cache merges start).follow (front ++ turn :: back) =
      (((contending cache merges start).follow front).turn turn).follow back :=
    System.follow_append _ front (turn :: back)
  have next : (contending cache merges start).follow (front ++ [turn]) =
      ((contending cache merges start).follow front).turn turn :=
    System.follow_append _ front [turn]
  rw [whole] at permitted ended
  rw [next]
  have permittedTurn := permitted.of_prefix (System.events_follow _ back)
  obtain ⟨standings, keeps, -⟩ := (contending_keeps merges True numbered).follow front
    (permittedTurn.of_prefix (System.events_turn _ turn))
  obtain ⟨later, keepsTurn, lasts, -⟩ := keeps.turn turn permittedTurn
  obtain ⟨final, keepsAll, rising⟩ := keepsTurn.follow back permitted
  have undraftedAtEnd : (final turn.process).work.hasDrafted = false := by
    rw [← Bool.not_eq_true]
    intro drafted
    obtain ⟨changed, taken⟩ := (ends_of_outcome keepsAll ended).2.drafted drafted
    cases outcome with
    | updated => exact other rfl
    | unchanged => exact changed rfl
    | skipped => exact taken rfl
  have undraftedToo : later.work.hasDrafted = false := by
    rw [← Bool.not_eq_true]
    intro drafted
    have kept := (rising turn.process).1 (by rw [Function.update_self]; exact drafted)
    rw [← Bool.not_eq_true] at undraftedAtEnd
    exact undraftedAtEnd kept
  have undrafted : (standings turn.process).work.hasDrafted = false := by
    rw [← Bool.not_eq_true]
    intro drafted
    rw [← Bool.not_eq_true] at undraftedToo
    exact undraftedToo (lasts drafted)
  exact content_turn contest trivial keeps keepsTurn undrafted undraftedToo

theorem takers_complete (numbered : start.IsNumbered) {schedule : List Turn}
    (spared : SparesHolders (Lock.pathFor cache)
      ((contending cache merges start).follow schedule).events) :
    (takers (Lock.pathFor cache) ((contending cache merges start).follow schedule).events).Nodup ∧
      ∀ process, ((contending cache merges start).follow schedule).outcome? process =
          some (.ok .updated) →
        process ∈ takers (Lock.pathFor cache)
          ((contending cache merges start).follow schedule).events := by
  obtain ⟨standings, keeps, -⟩ := contending_follow merges False numbered spared False.elim
  refine ⟨keeps.invariant.orderly.once, fun process updated => ?_⟩
  have replaced := (ends_of_outcome keeps updated).2.replaced.mpr rfl
  apply (keeps.invariant.orderly.taken process).mpr
  revert replaced
  cases standings process with
  | holding | gone => exact fun _ => rfl
  | arriving | waiting => rintro ⟨⟩

/-- Merges of one cache by any number of processes, interleaved in any way, lose no
update. At every moment at most one process has created the lock file and not yet removed
it, and the file is in its place. When all have ended, the cache holds what the merges
that made an update make of it one after another, in the order in which they took the
lock, each of them once. A merge that was skipped or had nothing to write changes the
cache in none of its steps.

The interleavings are those in which no lock is put aside while another process holds it,
as when no lock is judged stale, and in which no attempt to make the directories of the
cache fails. -/
theorem merges_lose_no_update (cache : Path) (merges : List Merge) (start : Store)
    (schedule : List Turn) (numbered : start.IsNumbered)
    (spared : SparesHolders (Lock.pathFor cache)
      ((contending cache merges start).follow schedule).events)
    (made : Accessible ((contending cache merges start).follow schedule).events) :
    (∀ front, front <+: schedule →
        HoldersSafe (Lock.pathFor cache) ((contending cache merges start).follow front)) ∧
      ((∀ process < merges.length,
          (((contending cache merges start).follow schedule).outcome? process).isSome) →
        contentIn cache ((contending cache merges start).follow schedule).store =
            (updatesMade (Lock.pathFor cache) merges
                ((contending cache merges start).follow schedule)).foldl
              (fun content merge =>
                merge.effect (fun text => (opened cache start).isDirectory ⟨text⟩) content)
              (contentIn cache start) ∧
          (takers (Lock.pathFor cache)
            ((contending cache merges start).follow schedule).events).Nodup ∧
          ∀ process, ((contending cache merges start).follow schedule).outcome? process =
              some (.ok .updated) →
            process ∈ takers (Lock.pathFor cache)
              ((contending cache merges start).follow schedule).events) ∧
      ∀ front turn back outcome, schedule = front ++ turn :: back →
        ((contending cache merges start).follow schedule).outcome? turn.process =
          some (.ok outcome) →
        outcome ≠ .updated →
        contentIn cache ((contending cache merges start).follow (front ++ [turn])).store =
          contentIn cache ((contending cache merges start).follow front).store := by
  refine ⟨?_, fun ended => ?_, ?_⟩
  · rintro front ⟨back, rfl⟩
    refine holdersSafe_of_spared numbered (spared.of_prefix ?_)
    rw [System.follow_append]
    exact System.events_follow _ back
  · exact ⟨content_eq_foldl_updates numbered spared made ended, takers_complete numbered spared⟩
  · rintro front turn back outcome rfl ended other
    exact content_of_not_updated numbered spared made ended other

/-- Three sources of one cache, the last of them without imports. -/
def threeMerges : List Merge :=
  [ { imports := ⟨"A", ["import p.X;"], "r"⟩, now := 1 },
    { imports := ⟨"B", ["import q.Y;"], "r"⟩, now := 2 },
    { imports := ⟨"C", [], "r"⟩, now := 3 } ]

/-- The second process finds the lock taken by the first and waits; the third comes last. -/
def takingTurns : List Turn :=
  [⟨0, 1⟩, ⟨1, 1⟩, ⟨1, 1⟩] ++ List.replicate 10 ⟨0, 1⟩ ++ List.replicate 14 ⟨1, 1⟩ ++
    List.replicate 8 ⟨2, 1⟩

theorem threeMerges_lose_no_update :
    Store.IsNumbered {} ∧
      SparesHolders (Lock.pathFor ⟨"deps"⟩)
        ((contending ⟨"deps"⟩ threeMerges {}).follow takingTurns).events ∧
      Accessible ((contending ⟨"deps"⟩ threeMerges {}).follow takingTurns).events ∧
      (∀ process < 3,
        (((contending ⟨"deps"⟩ threeMerges {}).follow takingTurns).outcome? process).isSome) ∧
      takers (Lock.pathFor ⟨"deps"⟩)
        ((contending ⟨"deps"⟩ threeMerges {}).follow takingTurns).events = [0, 1, 2] ∧
      contentIn ⟨"deps"⟩ ((contending ⟨"deps"⟩ threeMerges {}).follow takingTurns).store =
        some (.text "A|1;1;p/;X.java;\nB|2;2;q/;Y.java;\n") ∧
      contentIn ⟨"deps"⟩ ((contending ⟨"deps"⟩ threeMerges {}).follow takingTurns).store =
        (updatesMade (Lock.pathFor ⟨"deps"⟩) threeMerges
            ((contending ⟨"deps"⟩ threeMerges {}).follow takingTurns)).foldl
          (fun content merge =>
            merge.effect (fun text => (opened ⟨"deps"⟩ {}).isDirectory ⟨text⟩) content)
          (contentIn ⟨"deps"⟩ {}) := by
  have numbered : Store.IsNumbered {} := by
    rintro (_ | ⟨name, outer⟩) number stands <;> cases stands
  have spared : SparesHolders (Lock.pathFor ⟨"deps"⟩)
      ((contending ⟨"deps"⟩ threeMerges {}).follow takingTurns).events := by
    apply SparesHolders.of_unbroken
    have none : ((contending ⟨"deps"⟩ threeMerges {}).follow takingTurns).events.all
        (fun event => !breaks (Lock.pathFor ⟨"deps"⟩) event) = true := by decide +kernel
    simpa using none
  have made : Accessible ((contending ⟨"deps"⟩ threeMerges {}).follow takingTurns).events := by
    have none : ((contending ⟨"deps"⟩ threeMerges {}).follow takingTurns).events.all
        (fun event => !lacksDirectories event) = true := by decide +kernel
    simpa [Accessible] using none
  have ended : ∀ process < 3,
      (((contending ⟨"deps"⟩ threeMerges {}).follow takingTurns).outcome? process).isSome := by
    decide +kernel
  refine ⟨numbered, spared, made, ended, by decide +kernel, by decide +kernel, ?_⟩
  exact ((merges_lose_no_update ⟨"deps"⟩ threeMerges {} takingTurns numbered spared made).2.1
    ended).1

end Dependencies

end JavaStructure
