/-
# Nested scopes in statement lists

`scopeDepth` follows the depth of open scopes through a list of statements.
This module supplies its algebra: how it composes, that scopes which were open
before do no harm, and that it says the same as counting openings and closings
over every prefix.
-/

import JavaStructure.Model.Basic

namespace JavaStructure

/-- Whether a statement opens a scope. -/
def Statement.opens : Statement → Bool
  | .openScope _ => true
  | _ => false

/-- Whether a statement closes a scope. -/
def Statement.closes : Statement → Bool
  | .closeScope => true
  | _ => false

/-- How many scopes some statements open. -/
def openings (statements : List Statement) : Nat :=
  statements.countP Statement.opens

/-- How many scopes some statements close. -/
def closings (statements : List Statement) : Nat :=
  statements.countP Statement.closes

section Depth

variable {depth final : Nat} {front back statements : List Statement}

@[simp]
theorem scopeDepth_nil (depth : Nat) : scopeDepth depth [] = some depth := rfl

/-- The depth after two lists is the depth after the second, started where the
first one ends. -/
theorem scopeDepth_append (depth : Nat) (front back : List Statement) :
    scopeDepth depth (front ++ back) =
      (scopeDepth depth front).bind fun reached => scopeDepth reached back := by
  induction front generalizing depth with
  | nil => rfl
  | cons statement rest ih =>
      cases statement with
      | closeScope => cases depth <;> simp [scopeDepth, ih]
      | openScope _ | call _ _ | variableUse _ _ _ => simp [scopeDepth, ih]

/-- Two runs of statements are composed at the depth between them. -/
theorem scopeDepth_append_of_eq {reached : Nat} (first : scopeDepth depth front = some reached)
    (second : scopeDepth reached back = some final) :
    scopeDepth depth (front ++ back) = some final := by
  rw [scopeDepth_append, first]
  exact second

/-- Scopes that were open before stay open. -/
theorem scopeDepth_add (extra : Nat) (run : scopeDepth depth statements = some final) :
    scopeDepth (depth + extra) statements = some (final + extra) := by
  induction statements generalizing depth with
  | nil =>
      obtain rfl : depth = final := by simpa using run
      rfl
  | cons statement rest ih =>
      cases statement with
      | closeScope =>
          cases depth with
          | zero => simp [scopeDepth] at run
          | succ outer =>
              rw [Nat.add_right_comm]
              exact ih run
      | openScope _ =>
          have shifted := ih run
          rwa [Nat.add_right_comm] at shifted
      | call _ _ | variableUse _ _ _ => exact ih run

/-- Statements reach a depth exactly when no prefix closes more than there is
and the numbers agree in the end. -/
theorem scopeDepth_eq_some_iff :
    scopeDepth depth statements = some final ↔
      (∀ count, closings (statements.take count) ≤ depth + openings (statements.take count)) ∧
        depth + openings statements = final + closings statements := by
  induction statements generalizing depth with
  | nil => simp [closings, openings]
  | cons statement rest ih =>
      -- A prefix of the longer list is empty or starts with the new statement.
      have byPrefix (holds : List Statement → Prop) (empty : holds []) :
          (∀ count, holds ((statement :: rest).take count)) ↔
            ∀ count, holds (statement :: rest.take count) :=
        ⟨fun all count => all (count + 1), fun all count => by
          cases count with
          | zero => exact empty
          | succ count => exact all count⟩
      rw [byPrefix (fun front => closings front ≤ depth + openings front) (by simp [closings])]
      cases statement with
      | openScope _ =>
          simp only [scopeDepth, ih, closings, openings, List.countP_cons, Statement.opens,
            Statement.closes]
          grind
      | closeScope =>
          cases depth with
          | zero =>
              simp only [scopeDepth, closings, openings, List.countP_cons, Statement.opens,
                Statement.closes, reduceCtorEq, false_iff, not_and]
              intro all
              have first := all 0
              simp at first
          | succ outer =>
              simp only [scopeDepth, ih, closings, openings, List.countP_cons, Statement.opens,
                Statement.closes]
              grind
      | call _ _ | variableUse _ _ _ =>
          simp [scopeDepth, ih, closings, openings, Statement.opens, Statement.closes]

end Depth

section Balanced

variable {front back statements : List Statement}

theorem isBalanced_iff_scopeDepth :
    isBalanced statements = true ↔ scopeDepth 0 statements = some 0 := by
  simp [isBalanced]

/-- Balance by counting: no prefix closes more scopes than it opened, and all
are closed in the end. -/
theorem isBalanced_iff :
    isBalanced statements = true ↔
      (∀ count, closings (statements.take count) ≤ openings (statements.take count)) ∧
        closings statements = openings statements := by
  rw [isBalanced_iff_scopeDepth, scopeDepth_eq_some_iff]
  simp [eq_comm]

end Balanced

end JavaStructure
