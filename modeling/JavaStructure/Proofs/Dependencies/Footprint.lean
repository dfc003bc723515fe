/-
# The footprint of a merge

However a merge ends, and whatever it is refused, it touches the cache, its lock, and files whose
names it draws; and it makes no directories but those of the cache. Nobody else's file is written.
-/

import JavaStructure.Proofs.Dependencies.Neighbours
import JavaStructure.Proofs.Files.Footprints

namespace JavaStructure

namespace Dependencies

open Program (step)
open Store

/-- The names that a merge can draw from a number on: for putting a lock aside, and for a temporary
file. -/
def IsDrawn (cache : Path) (bound : Nat) (path : Path) : Prop :=
  ∃ drawn : Store, bound ≤ drawn.fresh ∧
    (path = Lock.asidePath (Lock.pathFor cache) drawn.token.1 ∨
      path = (cache.properParent?.getD ⟨"."⟩).join (".tmp" ++ Text.decimal drawn.fresh))

/-- What is drawn is called like a temporary file or like a lock that is put aside. -/
theorem IsDrawn.lastName? {cache path : Path} {bound : Nat} {last : List Char}
    (drawn : IsDrawn cache bound path) (named : cache.lastName? = some last) :
    ∃ front back, path.lastName? = some (front ++ back) ∧
      (front = ".tmp".toList ∨ front = last ++ ".lock.stale.".toList) := by
  obtain ⟨drawnIn, -, rfl | rfl⟩ := drawn
  · obtain ⟨back, namedAside⟩ := lastName?_aside (asidePath_isAside _ (token_plain drawnIn))
    refine ⟨_, back, ?_, .inr rfl⟩
    rw [namedAside, named, Option.map_some, List.append_assoc]
  · refine ⟨_, (Text.decimal drawnIn.fresh).toList, ?_, .inl rfl⟩
    rw [Path.lastName?_join, String.toList_append]
    rw [String.toList_append, List.mem_append, not_or]
    exact ⟨by decide, fun slash => absurd (Text.isDigit_of_mem_decimal slash) (by decide)⟩

/-- The paths that a merge may touch. -/
def IsOfMerge (cache : Path) (bound : Nat) (path : Path) : Prop :=
  path = cache ∨ path = Lock.pathFor cache ∨ IsDrawn cache bound path

/-- The path whose directories a merge may make. -/
def IsMadeForMerge (cache : Path) (path : Path) : Prop :=
  cache.properParent? = some path

/-- A program that touches only what a merge may touch. -/
abbrev StaysWithMerge {α : Type} (cache : Path) (bound : Nat) (post : α → Prop)
    (program : Program α) : Prop :=
  program.IsWithin (IsOfMerge cache bound) (IsMadeForMerge cache) bound post

variable {cache : Path} {bound : Nat}

theorem isOfMerge_cache : IsOfMerge cache bound cache :=
  .inl rfl

theorem isOfMerge_lock : IsOfMerge cache bound (Lock.pathFor cache) :=
  .inr (.inl rfl)

theorem staysWithMerge_staleToken (lock : Path) (staleAfter : Nat) :
    StaysWithMerge cache bound (fun _ => True) (Lock.staleToken? lock staleAfter) := by
  rw [Lock.staleToken?]
  refine Program.isWithin_ask trivial fun age? _ => ?_
  cases age? with
  | none => exact trivial
  | some age =>
      by_cases young : age ≤ staleAfter * 1000000000
      · simp only [if_pos young]
        exact trivial
      · simp only [if_neg young]
        refine Program.isWithin_ask trivial fun read _ => ?_
        cases read <;> exact trivial

theorem staysWithMerge_takeOver (seen : String) :
    StaysWithMerge cache bound (fun _ => True) (Lock.takeOver (Lock.pathFor cache) seen) := by
  rw [Lock.takeOver]
  refine Program.isWithin_ask trivial fun token drawn => ?_
  have aside : IsOfMerge cache bound (Lock.asidePath (Lock.pathFor cache) token) := by
    obtain ⟨drawnIn, fresh, rfl⟩ := drawn
    exact .inr (.inr ⟨drawnIn, fresh, .inl rfl⟩)
  have removed : StaysWithMerge cache bound (fun _ => True)
      (discard (step (.remove (Lock.asidePath (Lock.pathFor cache) token)))) :=
    Program.isWithin_discard aside
  have linked : StaysWithMerge cache bound (fun _ => True)
      (discard (step (.link (Lock.asidePath (Lock.pathFor cache) token) (Lock.pathFor cache)))) :=
    Program.isWithin_discard ⟨aside, isOfMerge_lock⟩
  refine Program.isWithin_ask ⟨isOfMerge_lock, aside⟩ fun renamed _ => ?_
  cases renamed with
  | false => exact trivial
  | true =>
      refine Program.isWithin_ask trivial fun read _ => ?_
      cases read with
      | error => exact Program.isWithin_bind linked fun _ _ => removed
      | ok found =>
          by_cases same : found = seen
          · simp only [if_pos same]
            exact removed
          · simp only [if_neg same]
            exact Program.isWithin_bind linked fun _ _ => removed

theorem staysWithMerge_sign {handle : Nat} (own : bound ≤ handle) :
    StaysWithMerge cache bound
      (fun result => ∀ lock, result = .ok lock → lock.path = Lock.pathFor cache)
      (Lock.sign (Lock.pathFor cache) handle).run := by
  rw [Lock.sign]
  refine Attempt.isWithin_ask trivial fun token _ => ?_
  refine Attempt.isWithin_ask own fun written _ => ?_
  cases written with
  | true => exact fun lock same => by cases same; rfl
  | false =>
      have removed : StaysWithMerge cache bound (fun _ => True)
          (step (.remove (Lock.pathFor cache))) := ⟨isOfMerge_lock, fun _ _ => trivial⟩
      exact Attempt.isWithin_bind (Attempt.isWithin_discard (Attempt.isWithin_lift removed))
        (fun _ _ lock same => by cases same) fun _ lock same => by cases same

theorem staysWithMerge_tryFor (policy : RetryPolicy) (attempts : Nat) :
    StaysWithMerge cache bound
      (fun result => ∀ lock, result = .ok (some lock) → lock.path = Lock.pathFor cache)
      (Lock.tryFor (Lock.pathFor cache) policy attempts).run := by
  induction attempts with
  | zero => exact fun lock same => by cases same
  | succ attempts ih =>
      rw [Lock.tryFor]
      refine Attempt.isWithin_ask isOfMerge_lock fun creation drawn => ?_
      cases creation with
      | created handle =>
          refine Attempt.isWithin_bind (staysWithMerge_sign (drawn handle rfl))
            (fun lock path => ?_) fun _ lock same => by cases same
          rintro _ ⟨⟩
          exact path lock rfl
      | refused => exact fun lock same => by cases same
      | occupied =>
          refine Attempt.isWithin_bind (Attempt.isWithin_lift (staysWithMerge_staleToken _ _))
            (fun seen? _ => ?_) fun _ lock same => by cases same
          cases seen? with
          | some seen =>
              exact Attempt.isWithin_bind (Attempt.isWithin_lift (staysWithMerge_takeOver seen))
                (fun _ _ => ih) fun _ lock same => by cases same
          | none =>
              by_cases last : attempts = 0
              · simp only [if_pos last]
                exact ih
              · simp only [if_neg last]
                exact Attempt.isWithin_ask trivial fun _ _ => ih

theorem staysWithMerge_release {lock : Lock} (path : lock.path = Lock.pathFor cache) :
    StaysWithMerge cache bound (fun _ => True) lock.release := by
  rw [Lock.release, path]
  refine Program.isWithin_ask trivial fun read _ => ?_
  cases read with
  | error => exact trivial
  | ok token =>
      by_cases own : token = lock.token
      · simp only [if_pos own]
        exact Program.isWithin_discard isOfMerge_lock
      · simp only [if_neg own]
        exact trivial

theorem staysWithMerge_directoriesAmong (paths : List String) :
    StaysWithMerge cache bound (fun _ => True) (Imports.directoriesAmong paths) := by
  induction paths with
  | nil => exact trivial
  | cons path rest ih =>
      rw [Imports.directoriesAmong]
      exact Program.isWithin_ask trivial fun found _ => Program.isWithin_bind ih fun _ _ => trivial

theorem staysWithMerge_writeLines (temporary : Path) {handle : Nat} (own : bound ≤ handle)
    (lines : List String) : StaysWithMerge cache bound (fun _ => True)
      (Cache.writeLines temporary handle lines).run := by
  induction lines with
  | nil => exact trivial
  | cons line rest ih =>
      rw [Cache.writeLines]
      have written : StaysWithMerge cache bound (fun _ => True)
          (step (.writeHandle handle (line ++ "\n"))) := ⟨own, fun _ _ => trivial⟩
      exact Attempt.isWithin_bind (Attempt.isWithin_must written) (fun _ _ => ih) fun _ => trivial

theorem staysWithMerge_replace {policy : RetryPolicy} (lines : List String) :
    StaysWithMerge cache bound (fun _ => True) (Cache.replace ⟨cache, policy⟩ lines).run := by
  rw [Cache.replace]
  refine Attempt.isWithin_ask ?_ fun made drawn => ?_
  · exact fun number fresh => .inr (.inr ⟨{ fresh := number }, fresh, .inr rfl⟩)
  cases made with
  | none => exact trivial
  | some draft =>
      obtain ⟨temporary, handle⟩ := draft
      obtain ⟨own, number, fresh, named⟩ := drawn temporary handle rfl
      have touched : IsOfMerge cache bound temporary :=
        .inr (.inr ⟨{ fresh := number }, fresh, .inr named⟩)
      have renamed : StaysWithMerge cache bound (fun _ => True) (step (.rename temporary cache)) :=
        ⟨⟨touched, isOfMerge_cache⟩, fun _ _ => trivial⟩
      have removed : StaysWithMerge cache bound (fun _ => True) (step (.remove temporary)) :=
        ⟨touched, fun _ _ => trivial⟩
      have filled : StaysWithMerge cache bound (fun _ => True)
          (Cache.fillTemporary ⟨cache, policy⟩ temporary handle lines).run :=
        Attempt.isWithin_bind (staysWithMerge_writeLines temporary own lines)
          (fun _ _ => Attempt.isWithin_must renamed) fun _ => trivial
      refine Attempt.isWithin_tryCatch filled (fun _ _ => trivial) fun failure => ?_
      exact Attempt.isWithin_bind (Attempt.isWithin_discard (Attempt.isWithin_lift removed))
        (fun _ _ => trivial) fun _ => trivial

theorem staysWithMerge_readLines {policy : RetryPolicy} :
    StaysWithMerge cache bound (fun _ => True) (Cache.readLines ⟨cache, policy⟩).run := by
  rw [Cache.readLines]
  refine Attempt.isWithin_ask trivial fun read _ => ?_
  rcases read with (_ | _) | text <;> exact trivial

theorem staysWithMerge_mergeHeld {policy : RetryPolicy} (imports : Imports) (now : Nat) :
    StaysWithMerge cache bound (fun _ => True)
      (Cache.mergeHeld ⟨cache, policy⟩ imports now).run := by
  rw [Cache.mergeHeld]
  refine Attempt.isWithin_bind staysWithMerge_readLines (fun lines _ => ?_) fun _ => trivial
  have recorded : StaysWithMerge cache bound (fun _ => True) (imports.record? now) :=
    Program.isWithin_bind (staysWithMerge_directoriesAmong _) fun _ _ => trivial
  refine Attempt.isWithin_bind (Attempt.isWithin_lift recorded) (fun record? _ => ?_)
    fun _ => trivial
  cases record? with
  | none => exact trivial
  | some record =>
      exact Attempt.isWithin_bind (staysWithMerge_replace _) (fun _ _ => trivial) fun _ => trivial

/-- The lock that is had is the lock of the cache. -/
theorem staysWithMerge_acquire {policy : RetryPolicy} {next : Option Lock → Attempt MergeOutcome}
    (absent : StaysWithMerge cache bound (fun _ => True) (next none).run)
    (held : ∀ lock : Lock, lock.path = Lock.pathFor cache →
      StaysWithMerge cache bound (fun _ => True) (next (some lock)).run) :
    StaysWithMerge cache bound (fun _ => True) (Lock.acquire cache policy >>= next).run := by
  refine Attempt.isWithin_bind (staysWithMerge_tryFor policy _) (fun lock? path => ?_)
    fun _ => trivial
  cases lock? with
  | none => exact absent
  | some lock => exact held lock (path lock rfl)

/-- However a merge ends, it touches only what it may touch. -/
theorem staysWithMerge_merge {policy : RetryPolicy} (imports : Imports) (now : Nat) :
    StaysWithMerge cache bound (fun _ => True) (Cache.merge ⟨cache, policy⟩ imports now).run := by
  have held (lock : Lock) (path : lock.path = Lock.pathFor cache) :
      StaysWithMerge cache bound (fun _ => True) (do
        let outcome ← ExceptT.lift (Cache.mergeHeld ⟨cache, policy⟩ imports now).run
        lock.release
        liftExcept outcome : Attempt MergeOutcome).run := by
    refine Attempt.isWithin_bind (Attempt.isWithin_lift (staysWithMerge_mergeHeld imports now))
      (fun outcome _ => ?_) fun _ => trivial
    refine Attempt.isWithin_bind (Attempt.isWithin_lift (staysWithMerge_release path))
      (fun _ _ => ?_) fun _ => trivial
    cases outcome <;> exact trivial
  rw [Cache.merge]
  cases parent : cache.properParent? with
  | none =>
      simp only
      exact staysWithMerge_acquire trivial held
  | some front =>
      simp only
      have made : StaysWithMerge cache bound (fun _ => True) (step (.makeDirectories front)) :=
        ⟨parent, fun _ _ => trivial⟩
      exact Attempt.isWithin_bind (Attempt.isWithin_must made)
        (fun _ _ => staysWithMerge_acquire trivial held) fun _ => trivial

theorem staysWithMerge_mergeNow {policy : RetryPolicy} (imports : Imports) :
    StaysWithMerge cache bound (fun _ => True) (Cache.mergeNow ⟨cache, policy⟩ imports).run :=
  Attempt.isWithin_ask trivial fun now _ => staysWithMerge_merge imports now

end Dependencies

end JavaStructure
