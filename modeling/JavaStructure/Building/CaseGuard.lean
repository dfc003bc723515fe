/-
# Case guards

How the labels of a switch become guarded scopes. Labels without a body
collect into one disjunction that guards the first label with a body, so a group
that falls through shows as one scope.
-/

import JavaStructure.Syntax.Node

namespace JavaStructure

/-- What a guard asks to be done with the scopes of a method. -/
inductive ScopeAction where
  | openScope (condition : String)
  | closeScope
  deriving DecidableEq

/-- Whether a label was seen since the last exit, and if so, whether one of
them opened a scope. -/
inductive CaseState where
  | idle
  | inCase (scopeOpen : Bool)
  deriving DecidableEq

/-- What a break or a return means for the innermost switch. -/
inductive CaseExit where
  /-- The case ends here. -/
  | now
  /-- The case ends when the next label starts. -/
  | deferred
  /-- The exit belongs to something else. -/
  | notOwned
  deriving DecidableEq

/-- The guard of an open switch. -/
structure CaseGuard where
  /-- The expression that is switched on. -/
  subject : String
  condition : String := ""
  state : CaseState := .idle
  /-- The depths of loops and of scopes at which the switch stands. -/
  loopDepth : Nat
  bodyDepth : Nat
  endPending : Bool := false

namespace CaseGuard

/-- The term that one label adds to a condition. -/
def term (guard : CaseGuard) (label : String) : String :=
  guard.subject ++ " == " ++ label

/-- Whether the guard has opened a scope that is still open. -/
def scopeIsOpen (guard : CaseGuard) : Bool :=
  guard.state == .inCase true

/-- End the current case, and close its scope if it opened one. -/
def endCase (guard : CaseGuard) : Option ScopeAction × CaseGuard :=
  (if guard.scopeIsOpen then some .closeScope else none,
    { guard with state := .idle, endPending := false })

/-- End the current case if an end was put off until now. -/
def settle (guard : CaseGuard) : Option ScopeAction × CaseGuard :=
  if guard.endPending then guard.endCase else (none, guard)

/-- Start a label once no end is pending. The condition starts anew after an
exit, and is continued within a case. -/
def continueCase (guard : CaseGuard) (label : String) (hasBody : Bool) :
    List ScopeAction × CaseGuard :=
  let condition := match guard.state with
    | .idle => guard.term label
    | .inCase _ => guard.condition ++ " || " ++ guard.term label
  let closing := if guard.scopeIsOpen ∧ hasBody then [.closeScope] else []
  let opening := if hasBody then [.openScope ("[" ++ condition ++ "]")] else []
  (closing ++ opening,
    { guard with condition, state := .inCase (hasBody || guard.scopeIsOpen) })

/-- Start a label. -/
def startCase (guard : CaseGuard) (label : String) (hasBody : Bool) :
    List ScopeAction × CaseGuard :=
  let (ended, guard) := guard.settle
  let (actions, guard) := guard.continueCase label hasBody
  (ended.toList ++ actions, guard)

/-- Put off the end of the current case until the next label starts. -/
def deferEnd (guard : CaseGuard) : CaseGuard :=
  match guard.state with
  | .idle => guard
  | .inCase _ => { guard with endPending := true }

/-- What an exit at some depths means. A break inside a loop leaves the loop; an
exit inside a branch of the case leaves the case only on that branch. -/
def exitAt (guard : CaseGuard) (depth loopDepth : Nat) (isBreak : Bool) : CaseExit :=
  if isBreak ∧ loopDepth ≠ guard.loopDepth then .notOwned
  else if depth = guard.bodyDepth then .now
  else if depth > guard.bodyDepth then .deferred
  else .notOwned

end CaseGuard

end JavaStructure
