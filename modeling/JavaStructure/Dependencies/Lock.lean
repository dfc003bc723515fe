/-
# Locks

Exclusive access to a cache, by a file beside it that only one holder can
create. The file carries a token of its holder, and is removed only by who
knows that token. A lock that has grown too old counts as left behind: it is
first given a private name, so that one waiter alone can have it, and given
back if it turns out to be another lock than the old one.
-/

import JavaStructure.Files.Program
import JavaStructure.Text.Cut

namespace JavaStructure.Dependencies

open Program (step)

/-- How often to try for a lock, and when to give up on its holder. -/
structure RetryPolicy where
  attempts : Nat := 50
  /-- The milliseconds between two attempts. -/
  delay : Nat := 100
  /-- The seconds after which a lock counts as left behind. -/
  staleAfter : Nat := 30
  deriving DecidableEq

/-- A lock that is held. -/
structure Lock where
  path : Path
  /-- What the lock file holds as long as the lock is this one. -/
  token : String
  deriving DecidableEq

namespace Lock

/-- The lock file of a cache. -/
def pathFor (cache : Path) : Path :=
  ⟨cache.text ++ ".lock"⟩

/-- The token in a lock file that has grown too old. -/
def staleToken? (lock : Path) (staleAfter : Nat) : Program (Option String) := do
  match ← step (.age lock) with
  | none => return none
  | some age =>
      if age ≤ staleAfter * 1000000000 then return none
      else
        match ← step (.readText lock) with
        | .ok token => return some token
        | .error _ => return none

/-- The private name under which a lock is put aside. -/
def asidePath (lock : Path) (token : String) : Path :=
  ⟨lock.text ++ ".stale." ++ Text.mapChars (Text.replaceChar ' ' ['-']) token⟩

/-- Remove a lock file if it still holds the token seen in it. -/
def takeOver (lock : Path) (seen : String) : Program Unit := do
  let aside := asidePath lock (← step .token)
  if ← step (.rename lock aside) then
    match ← step (.readText aside) with
    | .ok token => unless token = seen do discard (step (.link aside lock))
    | .error _ => discard (step (.link aside lock))
    discard (step (.remove aside))

/-- Write the token of a new holder into the lock file that was made for it. -/
def sign (lock : Path) (handle : Nat) : Attempt Lock := do
  let token ← step .token
  if ← step (.writeHandle handle token) then
    return { path := lock, token }
  else
    discard (step (.remove lock))
    throw (.cannotWriteLock lock)

/-- Try for a lock a number of times. There is no pause after a lock that was
left behind, and none after the last attempt. -/
def tryFor (lock : Path) (policy : RetryPolicy) : Nat → Attempt (Option Lock)
  | 0 => return none
  | attempts + 1 => do
      match ← step (.createNew lock) with
      | .created handle => return some (← sign lock handle)
      | .refused => throw (.cannotCreateLock lock)
      | .occupied =>
          match ← staleToken? lock policy.staleAfter with
          | some seen => takeOver lock seen
          | none => unless attempts = 0 do step (.pause (policy.delay * 1000000))
          tryFor lock policy attempts

/-- Take the lock of a cache, or nothing if it stayed held. -/
def acquire (cache : Path) (policy : RetryPolicy) : Attempt (Option Lock) :=
  tryFor (pathFor cache) policy policy.attempts

/-- Give a lock back. A lock file that is someone else's by now stays. -/
def release (lock : Lock) : Program Unit := do
  match ← step (.readText lock.path) with
  | .ok token => if token = lock.token then discard (step (.remove lock.path))
  | .error _ => return

end Lock

end JavaStructure.Dependencies
