/-
# Running programs

The answers that a store gives to the requests of a program, and the run of a
whole program on a store that nothing else changes. The clock of the store goes
on with every request, so that no two of them fall into one instant.
-/

import JavaStructure.Files.Store

namespace JavaStructure

namespace Store

/-- The answer to a request, and the store after it, at one instant. -/
def answerNow (store : Store) : (request : Request) → request.Answer × Store
  | .readText path => (store.readText path, store)
  | .canonical path => (store.canonical path, store)
  | .isPresent path => (store.isPresent path, store)
  | .isDirectory path => (store.isDirectory path, store)
  | .makeDirectories path => store.makeDirectories path
  | .writeText path text => store.write path (.text text)
  | .createNew path => store.createNew path
  | .writeHandle handle text => store.writeHandle handle text
  | .createTemporary directory => store.createTemporary directory
  | .rename source target => store.rename source target
  | .link source target => store.link source target
  | .remove path => store.remove path
  | .age path => (store.age path, store)
  | .now => (store.clock.toNat / 1000000000, store)
  | .token => store.token
  | .pause nanoseconds => ((), store.pause nanoseconds)

/-- The answer to a request, one nanosecond after what was before. -/
def answer (store : Store) (request : Request) : request.Answer × Store :=
  (store.pause 1).answerNow request

end Store

namespace Program

/-- Run a program on a store that nothing else changes. -/
def run : Program α → Store → α × Store
  | .done value, store => (value, store)
  | .ask request next, store =>
      let (answer, store) := store.answer request
      (next answer).run store

theorem run_pure (value : α) (store : Store) :
    (pure value : Program α).run store = (value, store) :=
  rfl

/-- The second program runs on what the first one leaves. -/
theorem run_bind (first : Program α) (next : α → Program β) (store : Store) :
    (first >>= next).run store = (next (first.run store).1).run (first.run store).2 := by
  induction first generalizing store with
  | done => rfl
  | ask request rest ih => exact ih _ _

end Program

/-- What follows an attempt runs on what the attempt leaves, unless it failed. -/
theorem Attempt.run_bind (attempt : Attempt α) (next : α → Attempt β) (store : Store) :
    (attempt >>= next).run.run store =
      match attempt.run.run store with
      | (.ok value, store) => (next value).run.run store
      | (.error failure, store) => (.error failure, store) := by
  rw [ExceptT.run_bind, Program.run_bind]
  generalize attempt.run.run store = reached
  obtain ⟨result, left⟩ := reached
  cases result <;> rfl

end JavaStructure
