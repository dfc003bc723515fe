/-
# What the steps of a visit append

Statements are only ever appended, and only to the open method. One lemma for
each step says what it appends; `Appends` is the common form of the results
about scopes: what is appended to each method takes it from one number of open
scopes to another.
-/

import JavaStructure.Proofs.Building.Outline
import JavaStructure.Proofs.Model.Balance

namespace JavaStructure

open Syntax (Node)

namespace Builder

variable {resolver : Resolver} {node : Node} {builder before middle after inside visited : Builder}
variable {leaving : Builder → Builder} {id : MethodId}

/-- The open method exists. -/
def Writable (builder : Builder) : Prop :=
  ∀ id, builder.currentMethod = some id → id < builder.model.methods.length

theorem Writable.withFrame (writable : builder.Writable) (frame : Frame) :
    (builder.withFrame frame).Writable := writable

/-- The open method goes on to exist. -/
theorem Keeps.writable (keeps : Keeps before after) (writable : before.Writable) :
    after.Writable := by
  intro id current
  rw [keeps.currentMethod] at current
  exact Nat.lt_of_lt_of_le (writable id current) keeps.grows.length_le

theorem initial_writable (resolver : Resolver) (path : String) :
    (initial resolver path).Writable := by
  intro id current
  simp [initial] at current

/-- The method that a node opens exists. -/
theorem opening_writable (opening : Opening resolver node builder inside leaving)
    (writable : builder.Writable) : inside.Writable := by
  cases opening with
  | namedClass _ _ _ =>
      intro id current
      simp [enterClass] at current
  | method owner kind owned =>
      intro id current
      obtain rfl : _ = id := by simpa [enterMethod] using current
      exact Model.addMethod_lt ..
  | anonymousClass _ | ownerlessMethod _ _ | lambda _ => exact writable
  | nesting label _ => exact (openScope_keeps builder label).writable writable
  | switch _ => exact writable
  | caseLabel _ => exact (startCase_keeps builder _ _).writable writable
  | creation _ => exact (notes_keeps (construct_notes ..)).writable writable
  | invocation _ => exact (notes_keeps (invoke_notes ..)).writable writable
  | returnExit _ | plain _ => exact writable

/-- Some statements for one method, and none for the others. -/
def forOpen (builder : Builder) (statements : List Statement) (id : MethodId) : List Statement :=
  if builder.currentMethod = some id then statements else []

@[simp]
theorem forOpen_nil (builder : Builder) (id : MethodId) : builder.forOpen [] id = [] := by
  simp [forOpen]

theorem forOpen_of_eq (current : builder.currentMethod = some id) (statements : List Statement) :
    builder.forOpen statements id = statements := by
  simp [forOpen, current]

theorem statementsOf_record (writable : builder.Writable) (statement : Statement) (id : MethodId) :
    (builder.record statement).model.statementsOf id =
      builder.model.statementsOf id ++ builder.forOpen [statement] id := by
  unfold record forOpen
  cases current : builder.currentMethod with
  | none => simp
  | some method =>
      simp only [withModel, Model.statementsOf_addStatement (writable method current),
        Option.some.injEq]

@[simp]
theorem record_frame (builder : Builder) (statement : Statement) :
    (builder.record statement).frame = builder.frame := by
  rw [record]
  split <;> rfl

theorem mentions_frame (mentions : Mentions before after) : after.frame = before.frame := by
  rw [mentions.same]
  rfl

theorem notes_frame (notes : Notes before after) : after.frame = before.frame := by
  cases notes with
  | silent refers => exact mentions_frame refers.toMentions
  | call refers _ _ | variableUse refers _ _ _ =>
      rw [record_frame]
      exact mentions_frame refers.toMentions

/-- Without an open method no scope is opened. -/
theorem openScope_of_none (closed : builder.currentMethod = none) (condition : String) :
    builder.openScope condition = builder := by
  simp [openScope, closed]

theorem openScope_of_some {method : MethodId} (current : builder.currentMethod = some method)
    (condition : String) :
    builder.openScope condition =
      (builder.withFrame
        { builder.frame with openScopes := builder.frame.openScopes + 1 }).record
          (.openScope condition) := by
  simp [openScope, current]

theorem closeScope_of_eq_zero (zero : builder.frame.openScopes = 0) :
    builder.closeScope = builder := by
  simp [closeScope, zero]

theorem closeScope_of_eq_succ {count : Nat} (succ : builder.frame.openScopes = count + 1) :
    builder.closeScope =
      (builder.withFrame { builder.frame with openScopes := count }).record .closeScope := by
  simp [closeScope, succ]

theorem statementsOf_openScope (writable : builder.Writable) (condition : String) (id : MethodId) :
    (builder.openScope condition).model.statementsOf id =
      builder.model.statementsOf id ++ builder.forOpen [.openScope condition] id := by
  cases current : builder.currentMethod with
  | none => simp [openScope_of_none current, forOpen, current]
  | some method =>
      rw [openScope_of_some current, statementsOf_record (writable.withFrame _)]
      rfl

theorem openScope_frame (builder : Builder) (condition : String) :
    (builder.openScope condition).frame =
      { builder.frame with
        openScopes :=
          builder.frame.openScopes + if builder.currentMethod.isSome then 1 else 0 } := by
  cases current : builder.currentMethod with
  | none => simp [openScope_of_none current]
  | some method => simp [openScope_of_some current, withFrame]

theorem statementsOf_closeScope (writable : builder.Writable)
    (positive : 0 < builder.frame.openScopes) (id : MethodId) :
    builder.closeScope.model.statementsOf id =
      builder.model.statementsOf id ++ builder.forOpen [.closeScope] id := by
  obtain ⟨count, succ⟩ := Nat.exists_eq_succ_of_ne_zero (Nat.ne_of_gt positive)
  rw [closeScope_of_eq_succ succ, statementsOf_record (writable.withFrame _)]
  rfl

theorem closeScope_frame (builder : Builder) :
    builder.closeScope.frame =
      { builder.frame with openScopes := builder.frame.openScopes - 1 } := by
  cases count : builder.frame.openScopes with
  | zero =>
      rw [closeScope_of_eq_zero count]
      cases frame : builder.frame
      simp_all
  | succ count => simp [closeScope_of_eq_succ count, withFrame]

/-- The statement that an action adds. -/
def statementOf : ScopeAction → Statement
  | .openScope condition => .openScope condition
  | .closeScope => .closeScope

/-- Without an open method and without open scopes, actions do nothing. -/
theorem applyAll_of_none (closed : builder.currentMethod = none)
    (zero : builder.frame.openScopes = 0) (actions : List ScopeAction) :
    builder.applyAll actions = builder := by
  induction actions with
  | nil => rfl
  | cons action rest ih =>
      cases action with
      | openScope condition =>
          rw [applyAll, List.foldl_cons, apply, openScope_of_none closed]
          exact ih
      | closeScope =>
          rw [applyAll, List.foldl_cons, apply, closeScope_of_eq_zero zero]
          exact ih

/-- Actions that never close more scopes than the frame has open are all carried
out, one statement each. -/
theorem applyAll_of_scopeDepth (writable : builder.Writable)
    {method : MethodId} (current : builder.currentMethod = some method)
    {actions : List ScopeAction} {final : Nat}
    (run : scopeDepth builder.frame.openScopes (actions.map statementOf) = some final) :
    (∀ id, (builder.applyAll actions).model.statementsOf id =
        builder.model.statementsOf id ++ builder.forOpen (actions.map statementOf) id) ∧
      (builder.applyAll actions).frame = { builder.frame with openScopes := final } := by
  induction actions generalizing builder with
  | nil =>
      obtain rfl : builder.frame.openScopes = final := by simpa using run
      simp [applyAll]
  | cons action rest ih =>
      have kept := apply_keeps builder action
      have next := ih (kept.writable writable) (kept.currentMethod.trans current)
      have together (id : MethodId) :
          (builder.apply action).forOpen (rest.map statementOf) id =
            builder.forOpen (rest.map statementOf) id := by
        simp [forOpen, kept.currentMethod]
      cases action with
      | openScope condition =>
          have frame : (builder.apply (.openScope condition)).frame =
              { builder.frame with openScopes := builder.frame.openScopes + 1 } := by
            simp [apply, openScope_frame, current]
          obtain ⟨statements, final⟩ := next (by rw [frame]; exact run)
          refine ⟨?_, final.trans (by rw [frame])⟩
          intro id
          apply (statements id).trans
          rw [together, apply, statementsOf_openScope writable]
          simp [forOpen, statementOf]
          split <;> simp
      | closeScope =>
          cases count : builder.frame.openScopes with
          | zero => simp [statementOf, scopeDepth, count] at run
          | succ outer =>
              have frame : (builder.apply .closeScope).frame =
                  { builder.frame with openScopes := outer } := by
                simp [apply, closeScope_frame, count]
              rw [count] at run
              obtain ⟨statements, final⟩ := next (by rw [frame]; exact run)
              refine ⟨?_, final.trans (by rw [frame])⟩
              intro id
              apply (statements id).trans
              rw [together, apply, statementsOf_closeScope writable (by omega)]
              simp [forOpen, statementOf]
              split <;> simp

theorem applyAll_switches (builder : Builder) (actions : List ScopeAction) :
    (builder.applyAll actions).frame.switches = builder.frame.switches := by
  induction actions generalizing builder with
  | nil => rfl
  | cons action rest ih =>
      apply (ih (builder.apply action)).trans
      cases action with
      | openScope condition => rw [apply, openScope_frame]
      | closeScope => rw [apply, closeScope_frame]

/-- What is appended to each method takes it from one number of open scopes to
another. How many scopes count as open is a parameter. -/
def Appends (level : Builder → MethodId → Nat) (before after : Builder) : Prop :=
  ∀ id, ∃ added,
    after.model.statementsOf id = before.model.statementsOf id ++ added ∧
      scopeDepth (level before id) added = some (level after id)

/-- What is appended to each method is balanced. -/
abbrev Encloses (before after : Builder) : Prop := Appends (fun _ _ => 0) before after

namespace Appends

variable {level : Builder → MethodId → Nat}

theorem of_eq (statements : ∀ id, after.model.statementsOf id = before.model.statementsOf id)
    (levels : ∀ id, level after id = level before id) : Appends level before after := by
  intro id
  exact ⟨[], by simp [statements], by simp [levels]⟩

theorem refl (builder : Builder) : Appends level builder builder :=
  of_eq (fun _ => rfl) (fun _ => rfl)

theorem trans (first : Appends level before middle) (second : Appends level middle after) :
    Appends level before after := by
  intro id
  obtain ⟨front, appendedFront, depthFront⟩ := first id
  obtain ⟨back, appendedBack, depthBack⟩ := second id
  refine ⟨front ++ back, ?_, scopeDepth_append_of_eq depthFront depthBack⟩
  rw [appendedBack, appendedFront, List.append_assoc]

/-- What starts and ends with no scope open is balanced. -/
theorem encloses (appends : Appends level before after) (starts : ∀ id, level before id = 0)
    (ends : ∀ id, level after id = 0) : Encloses before after := by
  intro id
  obtain ⟨added, appended, depth⟩ := appends id
  rw [starts, ends] at depth
  exact ⟨added, appended, depth⟩

end Appends

namespace Encloses

/-- Only the statements of the two states count. -/
theorem congr (encloses : Encloses inside visited)
    (entered : ∀ id, inside.model.statementsOf id = before.model.statementsOf id)
    (left : ∀ id, after.model.statementsOf id = visited.model.statementsOf id) :
    Encloses before after := by
  intro id
  obtain ⟨added, appended, depth⟩ := encloses id
  exact ⟨added, by rw [left, appended, entered], depth⟩

/-- What is balanced can stand at any level. -/
theorem appends {level : Builder → MethodId → Nat} (encloses : Encloses before after)
    (same : ∀ id, level after id = level before id) : Appends level before after := by
  intro id
  obtain ⟨added, appended, depth⟩ := encloses id
  refine ⟨added, appended, ?_⟩
  rw [same]
  simpa using scopeDepth_add (level before id) depth

end Encloses

end Builder

end JavaStructure
