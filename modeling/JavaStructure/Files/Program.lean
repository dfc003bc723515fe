/-
# File programs

What the library does with files, as data: a program asks for one step at a
time and goes on with the answer. A program can be run on a store, carried out
on real files, or taken step by step between the steps of other programs. Each
request is one step that nothing else comes in between of.
-/

import JavaStructure.Failure

namespace JavaStructure

/-- Why a file could not be read as text. -/
inductive ReadFault
  /-- There is nothing of that name. -/
  | missing
  /-- There is something, but no text can be had from it. -/
  | unreadable
  deriving DecidableEq

/-- How an attempt to create a new file ended. -/
inductive Creation
  /-- The file is there now, and is written through the handle. -/
  | created (handle : Nat)
  /-- Something of that name was there before. -/
  | occupied
  | refused
  deriving DecidableEq

/-- A step that a program asks for. -/
inductive Request
  | readText (path : Path)
  /-- The absolute form of the path of something that exists. -/
  | canonical (path : Path)
  | isPresent (path : Path)
  | isDirectory (path : Path)
  /-- Make a directory, and those that it lies in. -/
  | makeDirectories (path : Path)
  /-- Write a file as a whole, be it new or not. -/
  | writeText (path : Path) (text : String)
  /-- Create an empty file where there is nothing yet. -/
  | createNew (path : Path)
  /-- Write at the end of the file behind a handle, whatever its name is now. -/
  | writeHandle (handle : Nat) (text : String)
  /-- Create an empty file of a fresh name in a directory. -/
  | createTemporary (directory : Path)
  /-- Give a file another name, in place of the file that had it. -/
  | rename (source target : Path)
  /-- Give a file a second name, which nothing has yet. -/
  | link (source target : Path)
  | remove (path : Path)
  /-- The nanoseconds since a file was last written. -/
  | age (path : Path)
  /-- The seconds since the epoch. -/
  | now
  /-- A text that no other request was answered with. -/
  | token
  | pause (nanoseconds : Nat)
  deriving DecidableEq

/-- The kind of answer that a request has. Where it is a truth value, it says
whether the step was done. -/
abbrev Request.Answer : Request → Type
  | .readText _ => Except ReadFault String
  | .canonical _ => Option Path
  | .isPresent _ => Bool
  | .isDirectory _ => Bool
  | .makeDirectories _ => Bool
  | .writeText _ _ => Bool
  | .createNew _ => Creation
  | .writeHandle _ _ => Bool
  | .createTemporary _ => Option (Path × Nat)
  | .rename _ _ => Bool
  | .link _ _ => Bool
  | .remove _ => Bool
  | .age _ => Option Nat
  | .now => Nat
  | .token => String
  | .pause _ => Unit

/-- A program that ends with a value. -/
inductive Program (α : Type)
  | done (value : α)
  | ask (request : Request) (next : request.Answer → Program α)

namespace Program

/-- Go on with a second program after the first. -/
def bind (first : Program α) (next : α → Program β) : Program β :=
  match first with
  | .done value => next value
  | .ask request rest => .ask request fun answer => (rest answer).bind next

instance : Monad Program where
  pure := .done
  bind := bind

/-- The program of a single step. -/
def step (request : Request) : Program request.Answer :=
  .ask request .done

/-- Going on with `done` changes nothing. -/
theorem bind_pure (program : Program α) : program.bind .done = program := by
  induction program with
  | done => rfl
  | ask request rest ih => simp [bind, ih]

/-- How programs are grouped makes no difference. -/
theorem bind_bind (program : Program α) (second : α → Program β) (third : β → Program γ) :
    (program.bind second).bind third = program.bind fun value => (second value).bind third := by
  induction program with
  | done => rfl
  | ask request rest ih => simp [bind, ih]

instance : LawfulMonad Program :=
  LawfulMonad.mk' Program bind_pure (fun _ _ => rfl) bind_bind

/-- The absolute form of a path, or the path as it is where there is none. -/
def canonicalOrSame (path : Path) : Program Path := do
  return (← step (.canonical path)).getD path

end Program

/-- A program that may fail. -/
abbrev Attempt (α : Type) :=
  ExceptT Failure Program α

/-- Take a step that has to be done, or else fail. -/
def Attempt.must (failure : Failure) (done : Program Bool) : Attempt Unit := do
  unless ← done do
    throw failure

end JavaStructure
