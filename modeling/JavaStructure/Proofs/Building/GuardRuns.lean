/-
# Runs of a case guard

A switch drives its guard by the labels that start, by exits that end the case, and by exits
that only put the end off. Beside the guard stands what can be told from these steps alone: which
labels have started since the last exit. The guard refines it. For any steps whatever, its actions
open and close one scope in turn, and every scope opens under the labels since the last exit.
-/

import JavaStructure.Proofs.Building.CaseConditions
import Mathlib.Data.List.Infix

namespace JavaStructure

namespace ScopeAction

/-- The condition of a scope that is opened. -/
def condition? : ScopeAction → Option String
  | .openScope condition => some condition
  | .closeScope => none

/-- Whether a scope is open after some actions, given whether one was open before. There is no
answer where a scope is opened within another, or closed where none is open. -/
def scopeAfter : Bool → List ScopeAction → Option Bool
  | isOpen, [] => some isOpen
  | false, .openScope _ :: rest => scopeAfter true rest
  | true, .closeScope :: rest => scopeAfter false rest
  | _, _ => none

variable {actions : List ScopeAction} {before after : Bool}

theorem scopeAfter_append (isOpen : Bool) (front back : List ScopeAction) :
    scopeAfter isOpen (front ++ back) =
      (scopeAfter isOpen front).bind fun between => scopeAfter between back := by
  induction front generalizing isOpen with
  | nil => rfl
  | cons action rest ih =>
      cases isOpen with
      | false =>
          cases action with
          | openScope condition => exact ih true
          | closeScope => rfl
      | true =>
          cases action with
          | openScope condition => rfl
          | closeScope => exact ih false

/-- Scopes are opened and closed in turn. -/
theorem closes_iff_of_scopeAfter (turns : scopeAfter before actions = some after) {position : Nat}
    {action : ScopeAction} (found : actions[position]? = some action) :
    action = .closeScope ↔ (position % 2 = 1 ↔ before = false) := by
  induction actions generalizing before position with
  | nil => cases found
  | cons first rest ih =>
      cases position with
      | zero =>
          obtain rfl : first = action := by simpa using found
          cases before <;> cases first <;> simp_all [scopeAfter]
      | succ position =>
          have later : rest[position]? = some action := by simpa using found
          cases before with
          | false =>
              cases first with
              | openScope condition =>
                  have counted := ih (show scopeAfter true rest = some after from turns) later
                  simp only [counted, Bool.true_eq_false, iff_false, iff_true]
                  omega
              | closeScope => cases turns
          | true =>
              cases first with
              | openScope condition => cases turns
              | closeScope =>
                  have counted := ih (show scopeAfter false rest = some after from turns) later
                  simp only [counted, Bool.true_eq_false, iff_false, iff_true]
                  omega

/-- From no scope on, a scope is open at the end if the last action opened it. -/
theorem opens_last_iff_of_scopeAfter (turns : scopeAfter false actions = some after) :
    (∃ condition, actions.getLast? = some (.openScope condition)) ↔ after = true := by
  rcases List.eq_nil_or_concat actions with rfl | ⟨front, last, rfl⟩
  · obtain rfl : false = after := Option.some.inj turns
    simp
  · rw [List.concat_eq_append, scopeAfter_append] at turns
    obtain ⟨between, -, turns⟩ := Option.bind_eq_some_iff.mp turns
    rw [List.concat_eq_append, List.getLast?_append]
    cases between <;> cases last <;> simp_all [scopeAfter]

end ScopeAction

namespace CaseGuard

/-- What happens to the guard of a switch. -/
inductive Step
  /-- A label starts. -/
  | label (text : String) (hasBody : Bool)
  /-- The case ends. -/
  | exit
  /-- The end of the case is put off until the next label. -/
  | deferredExit
  deriving DecidableEq

/-- The actions of one step, and the guard after it. -/
def take (guard : CaseGuard) : Step → List ScopeAction × CaseGuard
  | .label text hasBody => guard.startCase text hasBody
  | .exit => (guard.endCase.1.toList, guard.endCase.2)
  | .deferredExit => ([], guard.deferEnd)

/-- The actions of some steps, and the guard after them. -/
def run (guard : CaseGuard) : List Step → List ScopeAction × CaseGuard
  | [] => ([], guard)
  | step :: rest =>
      let (actions, next) := guard.take step
      let (later, last) := next.run rest
      (actions ++ later, last)

/-- Whether a label has started since the case ended last. A history lists the steps so far, the
latest first. -/
def inCase : List Step → Bool
  | [] => false
  | .label _ _ :: _ => true
  | .exit :: _ => false
  | .deferredExit :: earlier => inCase earlier

/-- Whether the end of a case was put off, and neither a label nor an end has come since. -/
def endIsDeferred : List Step → Bool
  | .deferredExit :: earlier => inCase earlier
  | _ => false

/-- The labels that have started since the last exit, in their order. The last exit is an end of
the case, or a label that found its end put off; that label counts among those since. -/
def labelsSinceExit : List Step → List String
  | [] => []
  | .exit :: _ => []
  | .deferredExit :: earlier => labelsSinceExit earlier
  | .label text _ :: earlier =>
      (if endIsDeferred earlier then [] else labelsSinceExit earlier) ++ [text]

/-- The condition under which the latest step opens a scope, if it does: a label with a body opens
one for all labels since the last exit. -/
def openedCondition? (subject : String) : List Step → Option String
  | .label text true :: earlier =>
      some (guardText subject (labelsSinceExit (.label text true :: earlier)))
  | _ => none

/-- The labels that the next one continues. -/
def labelsContinued (history : List Step) : List String :=
  if endIsDeferred history then [] else labelsSinceExit history

theorem labelsSinceExit_label (text : String) (hasBody : Bool) (earlier : List Step) :
    labelsSinceExit (.label text hasBody :: earlier) = labelsContinued earlier ++ [text] := rfl

/-- Outside of a case there are no labels. -/
theorem labelsSinceExit_of_not_inCase {history : List Step} (outside : inCase history = false) :
    labelsSinceExit history = [] := by
  induction history with
  | nil => rfl
  | cons step earlier ih =>
      cases step with
      | label text hasBody => cases outside
      | exit => rfl
      | deferredExit => exact ih outside

/-- Once an end was put off, no label is continued. -/
theorem labelsContinued_deferredExit (earlier : List Step) :
    labelsContinued (.deferredExit :: earlier) = [] := by
  rw [labelsContinued, endIsDeferred, labelsSinceExit]
  cases inside : inCase earlier with
  | true => rfl
  | false => exact labelsSinceExit_of_not_inCase inside

variable {guard : CaseGuard} {subject : String} {history : List Step}

/-- One step opens and closes a scope in turn. -/
theorem scopeAfter_take (guard : CaseGuard) (step : Step) :
    ScopeAction.scopeAfter guard.scopeIsOpen (guard.take step).1 =
      some (guard.take step).2.scopeIsOpen := by
  obtain ⟨expression, condition, state, loopDepth, bodyDepth, endPending⟩ := guard
  cases step with
  | label text hasBody =>
      cases state with
      | idle => cases endPending <;> cases hasBody <;> rfl
      | inCase scopeOpen => cases scopeOpen <;> cases endPending <;> cases hasBody <;> rfl
  | exit =>
      cases state with
      | idle => rfl
      | inCase scopeOpen => cases scopeOpen <;> rfl
  | deferredExit => cases state <;> rfl

/-- A guard would have its next label continue the labels since the last exit, unless these are
settled by an end that was put off. -/
structure Follows (guard : CaseGuard) (subject : String) (history : List Step) : Prop where
  sameSubject : guard.subject = subject
  continued : guard.continued = joinedTerms subject (labelsContinued history)

theorem take_subject (guard : CaseGuard) (step : Step) :
    (guard.take step).2.subject = guard.subject := by
  obtain ⟨expression, condition, state, loopDepth, bodyDepth, endPending⟩ := guard
  cases step with
  | label text hasBody => cases endPending <;> rfl
  | exit => rfl
  | deferredExit => cases state <;> rfl

/-- A guard goes on following the steps. -/
theorem Follows.take (follows : guard.Follows subject history) (step : Step) :
    (guard.take step).2.Follows subject (step :: history) := by
  refine ⟨(take_subject guard step).trans follows.sameSubject, ?_⟩
  cases step with
  | label text hasBody =>
      have started := continued_startCase guard text hasBody
      rw [follows.continued, term, follows.sameSubject, continuedWith_joinedTerms] at started
      exact started
  | exit => exact continued_endCase guard
  | deferredExit =>
      rw [labelsContinued_deferredExit]
      exact continued_deferEnd guard

/-- A step opens the scope that the history says, and no other. -/
theorem Follows.conditions_take (follows : guard.Follows subject history) (step : Step) :
    (guard.take step).1.filterMap ScopeAction.condition? =
      (openedCondition? subject (step :: history)).toList := by
  have closing {closes : List ScopeAction} (each : ∀ action ∈ closes, action = .closeScope) :
      closes.filterMap ScopeAction.condition? = [] :=
    List.filterMap_eq_nil_iff.mpr fun action inside => each action inside ▸ rfl
  cases step with
  | label text hasBody =>
      cases hasBody with
      | false =>
          refine closing fun action inside => ?_
          obtain ⟨expression, condition, state, loopDepth, bodyDepth, endPending⟩ := guard
          cases state with
          | idle => cases endPending <;> cases inside
          | inCase scopeOpen =>
              cases scopeOpen <;> cases endPending <;>
                simp_all [CaseGuard.take, startCase, settle, endCase, continueCase, scopeIsOpen]
      | true =>
          obtain ⟨closes, each, actions⟩ := startCase_hasBody guard text
          calc (guard.startCase text true).1.filterMap ScopeAction.condition?
            _ = ["[" ++ continuedWith guard.continued (guard.term text) ++ "]"] := by
              rw [actions, List.filterMap_append, closing each]
              rfl
            _ = (openedCondition? subject (.label text true :: history)).toList := by
              rw [openedCondition?, labelsSinceExit_label, guardText_concat, ← follows.continued,
                ← follows.sameSubject]
              rfl
  | exit =>
      refine closing fun action inside => ?_
      rw [CaseGuard.take, endCase] at inside
      split at inside <;> simp_all
  | deferredExit => rfl

theorem scopeAfter_run (guard : CaseGuard) (steps : List Step) :
    ScopeAction.scopeAfter guard.scopeIsOpen (guard.run steps).1 =
      some (guard.run steps).2.scopeIsOpen := by
  induction steps generalizing guard with
  | nil => rfl
  | cons step rest ih =>
      rw [run, ScopeAction.scopeAfter_append, scopeAfter_take]
      exact ih (guard.take step).2

/-- The scopes that a run opens, by the histories that the steps come to. -/
theorem Follows.conditions_run (follows : guard.Follows subject history) (steps : List Step) :
    (guard.run steps).1.filterMap ScopeAction.condition? =
      steps.inits.tail.filterMap fun front =>
        openedCondition? subject (front.reverse ++ history) := by
  induction steps generalizing guard history with
  | nil => rfl
  | cons step rest ih =>
      have first : rest.inits = [] :: rest.inits.tail := by cases rest <;> rfl
      have later := ih (follows.take step)
      calc (guard.run (step :: rest)).1.filterMap ScopeAction.condition?
        _ = (openedCondition? subject (step :: history)).toList ++
            rest.inits.tail.filterMap fun front =>
              openedCondition? subject (front.reverse ++ step :: history) := by
          rw [run, List.filterMap_append, follows.conditions_take, later]
        _ = ([] :: rest.inits.tail).filterMap fun front =>
            openedCondition? subject (front.reverse ++ step :: history) := by
          rw [List.filterMap_cons, List.reverse_nil, List.nil_append]
          cases openedCondition? subject (step :: history) <;> rfl
        _ = (step :: rest).inits.tail.filterMap fun front =>
            openedCondition? subject (front.reverse ++ history) := by
          rw [← first, List.inits_cons, List.tail_cons, List.filterMap_map]
          simp

/-- A guard refines what the steps tell, whatever they are. Its actions open and close one scope
in turn, beginning with an opening; a scope is open at the end exactly if the guard says so; and
the scopes that it opens are, in order, one for each label with a body, under all labels that have
started since the last exit. -/
theorem run_refines_history (subject : String) (loopDepth bodyDepth : Nat) (steps : List Step) :
    let fresh : CaseGuard := { subject, loopDepth, bodyDepth }
    let actions := (fresh.run steps).1
    let last := (fresh.run steps).2
    (∀ position action, actions[position]? = some action →
        (action = .closeScope ↔ position % 2 = 1)) ∧
      ((∃ condition, actions.getLast? = some (.openScope condition)) ↔
        last.state = .inCase true) ∧
      actions.filterMap ScopeAction.condition? =
        steps.inits.filterMap fun front => openedCondition? subject front.reverse := by
  intro fresh actions last
  have turns : ScopeAction.scopeAfter false actions = some last.scopeIsOpen :=
    scopeAfter_run fresh steps
  refine ⟨fun position action found => ?_, ?_, ?_⟩
  · simpa using ScopeAction.closes_iff_of_scopeAfter turns found
  · rw [ScopeAction.opens_last_iff_of_scopeAfter turns, scopeIsOpen, beq_iff_eq]
  · have follows : fresh.Follows subject [] := ⟨rfl, rfl⟩
    have first : steps.inits = [] :: steps.inits.tail := by cases steps <;> rfl
    have conditions := follows.conditions_run steps
    simp only [List.append_nil] at conditions
    rw [conditions, first]
    rfl

/-- A label that falls through, one with a body whose end is put off, and one that finds it so. -/
example : (run { subject := "x", loopDepth := 0, bodyDepth := 0 }
    [.label "A" false, .label "B" true, .deferredExit, .label "C" true, .exit]).1 =
      [.openScope "[x == A || x == B]", .closeScope, .openScope "[x == C]", .closeScope] := by
  decide

end CaseGuard

end JavaStructure
