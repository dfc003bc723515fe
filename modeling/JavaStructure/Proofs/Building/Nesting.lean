/-
# Scopes match the nesting of the source

Balance alone would let a close belong to the wrong scope. In a tree whose labels
stand directly in switches, a visit closes no scope of its surroundings but the
one of the case it stands in, and that one only at the level of the case. The
invariant accounts for every open scope of a frame: one for each conditional or
loop, one for each switch whose current case has opened one.
-/

import JavaStructure.Proofs.Building.Statements
import JavaStructure.Proofs.Syntax.Preorder

namespace JavaStructure

open Syntax (Node Kind)

namespace Syntax.Kind

/-- Whether a construct is a label of a switch. -/
def isCase : Kind → Bool
  | .caseLabel _ _ _ => true
  | _ => false

/-- Whether a construct is a switch or has a body with a frame of its own. -/
def isEnclosing : Kind → Bool
  | .switch | .lambda | .classDecl _ _ | .methodDecl _ => true
  | _ => false

end Syntax.Kind

namespace Syntax.Node

/-- Below a node, labels stand only directly in switches. -/
def CasesPlaced (node : Node) : Prop :=
  ∀ inner ∈ node.preorder, ∀ child ∈ inner.children,
    child.kind.isCase = true → inner.kind = .switch

/-- In a tree, labels stand only directly in switches. -/
def CasesInSwitches (root : Node) : Prop :=
  root.kind.isCase = false ∧ root.CasesPlaced

theorem CasesPlaced.of_mem_children {node child : Node} (placed : node.CasesPlaced)
    (member : child ∈ node.children) : child.CasesPlaced :=
  fun inner below => placed inner (mem_preorder_of_mem_children member below)

theorem CasesPlaced.kind_eq_switch {node child : Node} (placed : node.CasesPlaced)
    (member : child ∈ node.children) (isCase : child.kind.isCase = true) : node.kind = .switch :=
  placed node node.mem_preorder_self child member isCase

end Syntax.Node

namespace CaseGuard

variable {guard : CaseGuard}

/-- How many scopes the current case of a guard has open: one or none. -/
def openScopes (guard : CaseGuard) : Nat :=
  guard.scopeIsOpen.toNat

theorem openScopes_deferEnd (guard : CaseGuard) :
    guard.deferEnd.openScopes = guard.openScopes := by
  rw [deferEnd]
  split <;> rfl

theorem bodyDepth_eq_of_atStart {changed : CaseGuard} (same : changed.atStart = guard.atStart) :
    changed.bodyDepth = guard.bodyDepth := by
  have depth := congrArg CaseGuard.bodyDepth same
  exact depth

/-- Ending a case closes the scope that the case has open, and no other. -/
theorem scopeDepth_endCase (guard : CaseGuard) :
    scopeDepth guard.openScopes (guard.endCase.1.toList.map Builder.statementOf) = some 0 := by
  unfold openScopes endCase
  cases guard.scopeIsOpen <;> rfl

theorem scopeDepth_settle (guard : CaseGuard) :
    scopeDepth guard.openScopes (guard.settle.1.toList.map Builder.statementOf) =
      some guard.settle.2.openScopes := by
  rw [settle]
  split
  · exact scopeDepth_endCase guard
  · rfl

theorem scopeDepth_continueCase (guard : CaseGuard) (label : String) (hasBody : Bool) :
    scopeDepth guard.openScopes ((guard.continueCase label hasBody).1.map Builder.statementOf) =
      some (guard.continueCase label hasBody).2.openScopes := by
  obtain ⟨subject, condition, state, loopDepth, bodyDepth, endPending⟩ := guard
  cases state with
  | idle => cases hasBody <;> rfl
  | inCase scopeOpen => cases scopeOpen <;> cases hasBody <;> rfl

/-- Starting a label closes the scope that the switch has open at most, and opens
the one that it has open then. -/
theorem scopeDepth_startCase (guard : CaseGuard) (label : String) (hasBody : Bool) :
    scopeDepth guard.openScopes ((guard.startCase label hasBody).1.map Builder.statementOf) =
      some (guard.startCase label hasBody).2.openScopes := by
  have composed := scopeDepth_append_of_eq (scopeDepth_settle guard)
    (scopeDepth_continueCase guard.settle.2 label hasBody)
  rw [← List.map_append] at composed
  exact composed

end CaseGuard

namespace Builder

variable {resolver : Resolver} {node : Node} {builder before middle after inside visited : Builder}
variable {leaving : Builder → Builder} {guard changed : CaseGuard} {outer : List CaseGuard}

/-- How many scopes the current cases of some switches have open. -/
def casesOpen (switches : List CaseGuard) : Nat :=
  switches.foldr (fun guard others => guard.openScopes + others) 0

/-- A number of scopes, if a method is open to hold them. -/
def counted (builder : Builder) (count : Nat) : Nat :=
  if builder.currentMethod.isSome then count else 0

/-- A frame accounts for its open scopes: each belongs to a conditional, a loop
or the current case of a switch, and no switch stands deeper than the walk. -/
structure Nested (builder : Builder) : Prop where
  writable : builder.Writable
  bodyDepth_le : ∀ guard ∈ builder.frame.switches, guard.bodyDepth ≤ builder.frame.depth
  openScopes : builder.frame.openScopes =
    builder.counted (builder.frame.depth + casesOpen builder.frame.switches)

/-- How many scopes the current case of the innermost switch has open. -/
def innermostOpen (builder : Builder) : Nat :=
  match builder.frame.switches with
  | [] => 0
  | guard :: _ => guard.openScopes

/-- Whether the walk is at the level of the cases of the innermost switch: no
conditional and no loop is open within it. -/
def atCase (builder : Builder) : Bool :=
  match builder.frame.switches with
  | [] => false
  | guard :: _ => guard.bodyDepth == builder.frame.depth

/-- How many scopes that were open before a visit the visit may close. -/
def caseLevel (builder : Builder) (id : MethodId) : Nat :=
  if builder.currentMethod = some id ∧ builder.atCase = true then builder.innermostOpen else 0

/-- What a visit does to the scopes around it: it closes at most that of the case
it stands in, and leaves that one alone where it is not at the level of the case. -/
structure Nests (before after : Builder) : Prop extends Keeps before after where
  appends : Appends caseLevel before after
  buried : before.atCase = false → after.innermostOpen = before.innermostOpen
  nested : after.Nested

theorem Keeps.atCase (keeps : Keeps before after) : after.atCase = before.atCase := by
  unfold Builder.atCase
  cases innermost : before.frame.switches with
  | nil => rw [keeps.switches_nil innermost]
  | cons guard outer =>
      obtain ⟨changed, found, same⟩ := keeps.switches_cons innermost
      simp only [found, keeps.depth, CaseGuard.bodyDepth_eq_of_atStart same]

theorem Keeps.bodyDepth_le (keeps : Keeps before after) (nested : before.Nested) :
    ∀ guard ∈ after.frame.switches, guard.bodyDepth ≤ after.frame.depth := by
  rw [keeps.depth]
  have bound := nested.bodyDepth_le
  cases innermost : before.frame.switches with
  | nil => simp [keeps.switches_nil innermost]
  | cons guard outer =>
      obtain ⟨changed, found, same⟩ := keeps.switches_cons innermost
      rw [innermost, List.forall_mem_cons] at bound
      rw [found, List.forall_mem_cons, CaseGuard.bodyDepth_eq_of_atStart same]
      exact bound

theorem Keeps.counted (keeps : Keeps before after) (count : Nat) :
    after.counted count = before.counted count := by
  simp [Builder.counted, keeps.currentMethod]

/-- The invariant is kept where the account of the open scopes is. -/
theorem Keeps.nested (keeps : Keeps before after) (nested : before.Nested)
    (openScopes : after.frame.openScopes =
      before.counted (before.frame.depth + casesOpen after.frame.switches)) : after.Nested where
  writable := keeps.writable nested.writable
  bodyDepth_le := keeps.bodyDepth_le nested
  openScopes := by rw [openScopes, keeps.counted, keeps.depth]

theorem casesOpen_eq (builder : Builder) :
    casesOpen builder.frame.switches =
      builder.innermostOpen + casesOpen builder.frame.switches.tail := by
  rw [innermostOpen]
  cases builder.frame.switches <;> rfl

/-- Only the innermost switch can have changed what its case has open. -/
theorem Keeps.casesOpen_eq (keeps : Keeps before after)
    (innermost : after.innermostOpen = before.innermostOpen) :
    casesOpen after.frame.switches = casesOpen before.frame.switches := by
  have tails := congrArg List.tail keeps.switches
  rw [List.tail_modifyHead, List.tail_modifyHead] at tails
  rw [after.casesOpen_eq, before.casesOpen_eq, innermost, tails]

/-- What is balanced and ends with the same scopes open closes none around it. -/
theorem Keeps.nests (keeps : Keeps before after) (nested : before.Nested)
    (encloses : Encloses before after) (innermost : after.innermostOpen = before.innermostOpen)
    (openScopes : after.frame.openScopes = before.frame.openScopes) : Nests before after where
  toKeeps := keeps
  appends := encloses.appends fun id => by
    simp only [caseLevel, keeps.currentMethod, keeps.atCase, innermost]
  buried _ := innermost
  nested := by
    apply keeps.nested nested
    rw [openScopes, nested.openScopes, keeps.casesOpen_eq innermost]

/-- With the frame as it was, balance is all there is to show. -/
theorem Keeps.nests_of_frame_eq (keeps : Keeps before after) (nested : before.Nested)
    (encloses : Encloses before after) (frame : after.frame = before.frame) :
    Nests before after :=
  keeps.nests nested encloses (by simp only [innermostOpen, frame]) (by rw [frame])

theorem Nests.refl (nested : builder.Nested) : Nests builder builder :=
  (Keeps.refl builder).nests_of_frame_eq nested (.refl builder) rfl

theorem Nests.trans (first : Nests before middle) (second : Nests middle after) :
    Nests before after where
  toKeeps := first.toKeeps.trans second.toKeeps
  appends := first.appends.trans second.appends
  buried away := (second.buried (first.toKeeps.atCase.trans away)).trans (first.buried away)
  nested := second.nested

/-- Actions are carried out one by one, above a floor of scopes they leave alone. -/
theorem applyAll_counted (writable : builder.Writable) {floor depth final : Nat}
    {actions : List ScopeAction}
    (count : builder.frame.openScopes = builder.counted (floor + depth))
    (run : scopeDepth depth (actions.map statementOf) = some final) :
    (∀ id, (builder.applyAll actions).model.statementsOf id =
        builder.model.statementsOf id ++ builder.forOpen (actions.map statementOf) id) ∧
      (builder.applyAll actions).frame =
        { builder.frame with openScopes := builder.counted (floor + final) } := by
  cases current : builder.currentMethod with
  | none =>
      have zero : builder.frame.openScopes = 0 := by simpa [counted, current] using count
      rw [applyAll_of_none current zero]
      refine ⟨fun id => by simp [forOpen, current], ?_⟩
      cases frame : builder.frame
      simp_all [counted]
  | some method =>
      have shifted := scopeDepth_add floor run
      rw [Nat.add_comm depth, Nat.add_comm final] at shifted
      have present : builder.currentMethod.isSome = true := by simp [current]
      simp only [counted, present, if_true] at count ⊢
      exact applyAll_of_scopeDepth writable current (by rw [count]; exact shifted)

/-- What the guard of the innermost switch asks for is carried out above the scopes
of all others, whichever switches are open from then on. -/
theorem withSwitches_applyAll (nested : builder.Nested)
    (innermost : builder.frame.switches = guard :: outer) (switches : List CaseGuard)
    {actions : List ScopeAction} {final : Nat}
    (run : scopeDepth guard.openScopes (actions.map statementOf) = some final) :
    (∀ id, ((builder.withFrame { builder.frame with switches }).applyAll
        actions).model.statementsOf id =
      builder.model.statementsOf id ++ builder.forOpen (actions.map statementOf) id) ∧
      ((builder.withFrame { builder.frame with switches }).applyAll actions).frame =
        { builder.frame with
          switches
          openScopes := builder.counted (builder.frame.depth + casesOpen outer + final) } := by
  have writable : (builder.withFrame { builder.frame with switches }).Writable := nested.writable
  have count : (builder.withFrame { builder.frame with switches }).frame.openScopes =
      (builder.withFrame { builder.frame with switches }).counted
        (builder.frame.depth + casesOpen outer + guard.openScopes) := by
    apply nested.openScopes.trans
    rw [innermost, Nat.add_assoc, Nat.add_comm (casesOpen outer)]
    rfl
  exact applyAll_counted writable count run

/-- At the level of the case, the innermost switch may close the scope it has
open and open another. -/
theorem withGuard_nests (nested : builder.Nested)
    (innermost : builder.frame.switches = guard :: outer) (same : changed.atStart = guard.atStart)
    (level : builder.atCase = true) {actions : List ScopeAction}
    (run : scopeDepth guard.openScopes (actions.map statementOf) = some changed.openScopes) :
    Nests builder ((builder.withGuard changed outer).applyAll actions) := by
  have keeps := (withGuard_keeps innermost same).trans
    (applyAll_keeps (builder.withGuard changed outer) actions)
  obtain ⟨statements, frame⟩ : _ ∧ ((builder.withGuard changed outer).applyAll actions).frame = _ :=
    withSwitches_applyAll nested innermost (changed :: outer) run
  refine ⟨keeps, ?_, ?_, keeps.nested nested ?_⟩
  · intro id
    refine ⟨_, statements id, ?_⟩
    have before : builder.innermostOpen = guard.openScopes := by
      simp only [innermostOpen, innermost]
    have after : ((builder.withGuard changed outer).applyAll actions).innermostOpen =
        changed.openScopes := by
      simp only [innermostOpen, frame]
    simp only [caseLevel, keeps.currentMethod, keeps.atCase, level, before, after, and_true]
    by_cases current : builder.currentMethod = some id
    · simpa [forOpen, current] using run
    · simp [forOpen, current]
  · intro away
    simp [level] at away
  · rw [frame]
    simp [casesOpen, Nat.add_assoc, Nat.add_comm changed.openScopes]

theorem endCase_nests (nested : builder.Nested) (level : builder.atCase = true) :
    Nests builder builder.endCase := by
  rw [endCase]
  split
  · exact .refl nested
  · next guard outer innermost =>
      exact withGuard_nests nested innermost guard.endCase_atStart level guard.scopeDepth_endCase

/-- Starting a label adds what the guard asks for. -/
theorem startCase_appends (nested : builder.Nested)
    (innermost : builder.frame.switches = guard :: outer) (label : String) (hasBody : Bool)
    (id : MethodId) :
    (builder.startCase label hasBody).model.statementsOf id =
      builder.model.statementsOf id ++
        builder.forOpen ((guard.startCase label hasBody).1.map statementOf) id := by
  rw [startCase]
  rw [innermost]
  exact (withSwitches_applyAll nested innermost _ (guard.scopeDepth_startCase label hasBody)).1 id

theorem startCase_nests (nested : builder.Nested) (level : builder.atCase = true) (label : String)
    (hasBody : Bool) : Nests builder (builder.startCase label hasBody) := by
  rw [startCase]
  split
  · exact .refl nested
  · next guard outer innermost =>
      exact withGuard_nests nested innermost (guard.startCase_atStart label hasBody) level
        (guard.scopeDepth_startCase label hasBody)

/-- An exit closes the scope of the case only where it is at its level. -/
theorem exitCase_nests (nested : builder.Nested) (isBreak : Bool) :
    Nests builder (builder.exitCase isBreak) := by
  rw [exitCase]
  split
  · exact .refl nested
  · next guard outer innermost =>
      split
      · next now =>
          apply endCase_nests nested
          simp only [atCase, innermost, beq_iff_eq]
          unfold CaseGuard.exitAt at now
          split at now
          · contradiction
          · split at now
            · next level => exact level.symm
            · split at now <;> contradiction
      · next deferred =>
          refine (withGuard_keeps innermost guard.deferEnd_atStart).nests nested
            (.of_eq (fun _ => rfl) fun _ => rfl) ?_ rfl
          simp [innermostOpen, innermost, withGuard, withFrame, guard.openScopes_deferEnd]
      · exact .refl nested

theorem mentions_nests (nested : before.Nested) (mentions : Mentions before after) :
    Nests before after := by
  apply (Keeps.of_registers mentions.registers).nests_of_frame_eq nested
  · exact .of_eq mentions.model.statements fun _ => rfl
  · rw [mentions.same]
    rfl

/-- A statement that is no scope can stand anywhere. -/
theorem record_nests (nested : builder.Nested) {statement : Statement}
    (neutral : scopeDepth 0 [statement] = some 0) :
    Nests builder (builder.record statement) := by
  refine (record_keeps builder statement).nests_of_frame_eq nested ?_ (record_frame ..)
  intro id
  refine ⟨_, statementsOf_record nested.writable statement id, ?_⟩
  rw [forOpen]
  split
  · exact neutral
  · rfl

theorem notes_nests (nested : before.Nested) (notes : Notes before after) :
    Nests before after := by
  cases notes with
  | silent refers => exact mentions_nests nested refers.toMentions
  | call refers _ _ | variableUse refers _ _ _ =>
      have mentioned := mentions_nests nested refers.toMentions
      exact mentioned.trans (record_nests mentioned.nested rfl)

theorem visitLeaf_nests (nested : builder.Nested) :
    Nests builder (visitLeaf resolver node builder) := by
  rw [visitLeaf]
  split
  · exact mentions_nests nested (.of_model (Model.addImport_mentions ..))
  · exact exitCase_nests nested true
  · exact notes_nests nested (useVariable_notes ..)
  · exact .refl nested

/-- Away from the level of a case, every visit appends balanced statements. -/
theorem Nests.encloses (nests : Nests before after) (away : before.atCase = false) :
    Encloses before after := by
  apply nests.appends.encloses
  · intro id
    simp [caseLevel, away]
  · intro id
    simp [caseLevel, nests.toKeeps.atCase, away]

/-- A frame of its own has nothing open. -/
theorem nested_of_fresh (writable : builder.Writable) (fresh : builder.frame = {}) :
    builder.Nested := by
  refine ⟨writable, ?_, ?_⟩
  · simp [fresh]
  · simp [fresh, counted, casesOpen]

/-- Where no scope is left open, leaving a body adds nothing to the model. -/
theorem closeOpenScopes_model (zero : builder.frame.openScopes = 0) :
    builder.closeOpenScopes.model = builder.model := by
  rw [closeOpenScopes, zero]
  rfl

/-- A body leaves no scope to be closed, and what it appends is balanced. -/
theorem Nests.body (children : Nests inside visited) (fresh : inside.frame = {}) :
    visited.frame.openScopes = 0 ∧ Encloses inside visited := by
  have noSwitch : inside.frame.switches = [] := by rw [fresh]
  have still := children.toKeeps.switches_nil noSwitch
  constructor
  · rw [children.nested.openScopes, children.toKeeps.depth, still, fresh]
    simp [counted, casesOpen]
  · exact children.encloses (by simp [atCase, noSwitch])

theorem enterScoped_nested (nested : builder.Nested) (label : String) (isLoop : Bool) :
    (builder.enterScoped label isLoop).Nested := by
  have opened := openScope_keeps builder label
  refine ⟨opened.writable nested.writable, ?_, ?_⟩
  · intro guard member
    rw [enterScoped, openScope_frame] at member ⊢
    exact Nat.le_succ_of_le (nested.bodyDepth_le guard member)
  · simp only [enterScoped, withFrame, openScope_frame, nested.openScopes, counted,
      opened.currentMethod]
    split <;> omega

/-- Below a conditional or a loop, no case of the switches around it is at its
level. -/
theorem enterScoped_atCase (nested : builder.Nested) (label : String) (isLoop : Bool) :
    (builder.enterScoped label isLoop).atCase = false := by
  have bound := nested.bodyDepth_le
  simp only [atCase, enterScoped, withFrame, openScope_frame]
  split
  · rfl
  · next guard outer innermost =>
      have shallow := bound guard (by simp [innermost])
      simp only [beq_eq_false_iff_ne]
      omega

theorem enterScoped_innermostOpen (builder : Builder) (label : String) (isLoop : Bool) :
    (builder.enterScoped label isLoop).innermostOpen = builder.innermostOpen := by
  simp only [innermostOpen, enterScoped, withFrame, openScope_frame]

theorem statementsOf_leaveScoped (writable : visited.Writable)
    (positive : 0 < visited.frame.openScopes) (isLoop : Bool) (id : MethodId) :
    (visited.leaveScoped isLoop).model.statementsOf id =
      visited.model.statementsOf id ++ visited.forOpen [.closeScope] id := by
  rw [leaveScoped]
  refine statementsOf_closeScope (writable.withFrame _) ?_ id
  exact positive

/-- A conditional or a loop appends its scope around what its children append,
which is balanced. -/
theorem leaveScoped_appends (nested : builder.Nested) {label : String} {isLoop : Bool}
    (children : Nests (builder.enterScoped label isLoop) visited) (id : MethodId) :
    ∃ inner, scopeDepth 0 inner = some 0 ∧
      (visited.leaveScoped isLoop).model.statementsOf id =
        builder.model.statementsOf id ++ builder.forOpen [.openScope label] id ++ inner ++
          builder.forOpen [.closeScope] id := by
  have opened := openScope_keeps builder label
  have buried := enterScoped_atCase nested label isLoop
  have current : visited.currentMethod = builder.currentMethod :=
    children.toKeeps.currentMethod.trans opened.currentMethod
  obtain ⟨inner, appended, depth⟩ := children.encloses buried id
  refine ⟨inner, depth, ?_⟩
  have entered : (builder.enterScoped label isLoop).model.statementsOf id =
      builder.model.statementsOf id ++ builder.forOpen [.openScope label] id :=
    statementsOf_openScope nested.writable label id
  rw [← entered, ← appended]
  cases running : builder.currentMethod with
  | none =>
      have zero : visited.frame.openScopes = 0 := by
        simp [children.nested.openScopes, counted, current, running]
      rw [leaveScoped, closeScope_of_eq_zero (by exact zero)]
      simp [forOpen, running, withFrame]
  | some method =>
      have positive : 0 < visited.frame.openScopes := by
        rw [children.nested.openScopes, children.toKeeps.depth]
        simp only [counted, current, running, enterScoped, withFrame, Option.isSome_some, if_true]
        omega
      rw [statementsOf_leaveScoped children.nested.writable positive]
      simp only [forOpen, current]

/-- Taken as a whole, what a conditional or a loop appends is balanced. -/
theorem leaveScoped_encloses (nested : builder.Nested) {label : String} {isLoop : Bool}
    (children : Nests (builder.enterScoped label isLoop) visited) :
    Encloses builder (visited.leaveScoped isLoop) := by
  intro id
  obtain ⟨inner, depth, appended⟩ := leaveScoped_appends nested children id
  refine ⟨_, by rw [appended, List.append_assoc, List.append_assoc], ?_⟩
  have nestedDepth := scopeDepth_add 1 depth
  unfold forOpen
  split
  · exact scopeDepth_append_of_eq rfl (scopeDepth_append_of_eq nestedDepth rfl)
  · simpa using depth

theorem leaveScoped_nests (nested : builder.Nested) {label : String} {isLoop : Bool}
    (children : Nests (builder.enterScoped label isLoop) visited) :
    Nests builder (visited.leaveScoped isLoop) := by
  have opened := openScope_keeps builder label
  have keeps := leaveScoped_keeps children.toKeeps
  have switches : (visited.leaveScoped isLoop).frame.switches = visited.frame.switches := by
    rw [leaveScoped, closeScope_frame]
    rfl
  have innermost : visited.innermostOpen = builder.innermostOpen :=
    (children.buried (enterScoped_atCase nested label isLoop)).trans
      (enterScoped_innermostOpen builder label isLoop)
  have same : (visited.leaveScoped isLoop).innermostOpen = builder.innermostOpen := by
    rw [← innermost, innermostOpen, switches]
    rfl
  have casesOpen : casesOpen visited.frame.switches = casesOpen builder.frame.switches := by
    rw [← switches]
    exact keeps.casesOpen_eq same
  apply keeps.nests nested (leaveScoped_encloses nested children) same
  rw [leaveScoped, closeScope_frame]
  simp only [withFrame, children.nested.openScopes, nested.openScopes, casesOpen, counted,
    children.toKeeps.currentMethod, children.toKeeps.depth, enterScoped, opened.currentMethod,
    opened.depth]
  split <;> omega

theorem enterSwitch_nested (nested : builder.Nested) (node : Node) :
    (builder.enterSwitch node).Nested := by
  refine ⟨nested.writable, ?_, ?_⟩
  · simpa [enterSwitch, withFrame] using nested.bodyDepth_le
  · apply nested.openScopes.trans
    have fresh (rest : Nat) : 0 + rest = rest := Nat.zero_add rest
    exact congrArg builder.counted (congrArg (builder.frame.depth + ·) (fresh _).symm)

theorem enterSwitch_atCase (builder : Builder) (node : Node) :
    (builder.enterSwitch node).atCase = true := by
  simp [atCase, enterSwitch, withFrame]

theorem leaveSwitch_appends (nested : visited.Nested)
    (innermost : visited.frame.switches = guard :: outer) :
    (∀ id, visited.leaveSwitch.model.statementsOf id =
        visited.model.statementsOf id ++
          visited.forOpen (guard.endCase.1.toList.map statementOf) id) ∧
      visited.leaveSwitch.frame =
        { visited.frame with
          switches := outer
          openScopes := visited.counted (visited.frame.depth + casesOpen outer) } := by
  rw [leaveSwitch, innermost]
  exact withSwitches_applyAll nested innermost outer guard.scopeDepth_endCase

/-- A switch closes the scope that its last case has open, and no other. -/
theorem leaveSwitch_encloses (children : Nests (builder.enterSwitch node) visited) :
    Encloses builder visited.leaveSwitch := by
  obtain ⟨guard, innermost, same⟩ := children.toKeeps.switches_cons rfl
  have level : visited.atCase = true :=
    children.toKeeps.atCase.trans (enterSwitch_atCase builder node)
  intro id
  obtain ⟨added, appended, depth⟩ := children.appends id
  have starts : (builder.enterSwitch node).caseLevel id = 0 := by
    rw [caseLevel]
    split <;> rfl
  have ends : visited.caseLevel id =
      if visited.currentMethod = some id then guard.openScopes else 0 := by
    simp [caseLevel, innermostOpen, level, innermost]
  rw [starts, ends] at depth
  refine ⟨added ++ visited.forOpen (guard.endCase.1.toList.map statementOf) id, ?_, ?_⟩
  · rw [(leaveSwitch_appends children.nested innermost).1, appended, List.append_assoc]
    rfl
  · apply scopeDepth_append_of_eq depth
    rw [forOpen]
    split
    · exact guard.scopeDepth_endCase
    · rfl

theorem leaveSwitch_nests (nested : builder.Nested)
    (children : Nests (builder.enterSwitch node) visited) : Nests builder visited.leaveSwitch := by
  obtain ⟨guard, innermost, same⟩ := children.toKeeps.switches_cons rfl
  have frame := (leaveSwitch_appends children.nested innermost).2
  apply (leaveSwitch_keeps children.toKeeps).nests nested (leaveSwitch_encloses children)
  · simp only [innermostOpen, frame]
  · rw [frame, nested.openScopes, children.toKeeps.depth]
    simp only [counted, children.toKeeps.currentMethod]
    rfl

/-- The children of a node start in a state that accounts for its scopes, and
those of a switch at the level of its cases. -/
theorem opening_nested (opening : Opening resolver node builder inside leaving)
    (nested : builder.Nested) (level : node.kind.isCase = true → builder.atCase = true) :
    inside.Nested ∧ (node.kind = .switch → inside.atCase = true) := by
  have writable := opening_writable opening nested.writable
  cases opening with
  | namedClass _ kind _ => exact ⟨nested_of_fresh writable rfl, by simp [kind]⟩
  | anonymousClass kind => exact ⟨nested_of_fresh writable rfl, by simp [kind]⟩
  | method _ kind _ => exact ⟨nested_of_fresh writable rfl, by simp [kind]⟩
  | ownerlessMethod kind _ => exact ⟨nested_of_fresh writable rfl, by simp [kind]⟩
  | lambda kind => exact ⟨nested_of_fresh writable rfl, by simp [kind]⟩
  | nesting label labelled =>
      refine ⟨enterScoped_nested nested label _, ?_⟩
      intro kind
      simp [scopeLabel, kind] at labelled
  | switch kind => exact ⟨enterSwitch_nested nested node, fun _ => enterSwitch_atCase builder node⟩
  | caseLabel kind =>
      exact ⟨(startCase_nests nested (level (by simp [kind, Kind.isCase])) _ _).nested,
        by simp [kind]⟩
  | returnExit kind => exact ⟨nested, by simp [kind]⟩
  | creation kind => exact ⟨(notes_nests nested (construct_notes ..)).nested, by simp [kind]⟩
  | invocation kind => exact ⟨(notes_nests nested (invoke_notes ..)).nested, by simp [kind]⟩
  | plain kind => exact ⟨nested, fun switch => by simp [switch, Kind.isPlain] at kind⟩

/-- A switch and a body of its own append balanced statements. -/
theorem opening_encloses (opening : Opening resolver node builder inside leaving)
    (enclosing : node.kind.isEnclosing = true) (children : Nests inside visited) :
    Encloses builder (leaving visited) := by
  cases opening with
  | namedClass qualified kind named =>
      have mentions := declareClass_mentions resolver builder node qualified
      obtain ⟨zero, encloses⟩ := children.body rfl
      exact encloses.congr mentions.model.statements fun _ => rfl
  | @method name owner kind owned =>
      have registers := declareMethod_registers resolver builder node owner name
      obtain ⟨zero, encloses⟩ := children.body rfl
      apply encloses.congr registers.model.statements
      intro id
      exact congrArg (·.statementsOf id) (closeOpenScopes_model zero)
  | anonymousClass kind =>
      obtain ⟨zero, encloses⟩ := children.body rfl
      have lowered : ({ visited with anonymousDepth := visited.anonymousDepth - 1 } :
          Builder).frame.openScopes = 0 := zero
      apply encloses.congr (fun _ => rfl)
      intro id
      exact congrArg (·.statementsOf id) (closeOpenScopes_model lowered)
  | ownerlessMethod _ _ | lambda _ =>
      obtain ⟨zero, encloses⟩ := children.body rfl
      apply encloses.congr (fun _ => rfl)
      intro id
      exact congrArg (·.statementsOf id) (closeOpenScopes_model zero)
  | switch kind => exact leaveSwitch_encloses children
  | nesting label labelled =>
      unfold scopeLabel at labelled
      split at labelled <;> simp_all [Kind.isEnclosing]
  | plain kind => cases found : node.kind <;> simp_all [Kind.isEnclosing, Kind.isPlain]
  | caseLabel kind | returnExit kind | creation kind | invocation kind =>
      simp [kind, Kind.isEnclosing] at enclosing

/-- A conditional or a loop appends its scope to the open method, around
balanced statements. -/
theorem opening_wraps (opening : Opening resolver node builder inside leaving)
    (nested : builder.Nested) {label : String} (labelled : scopeLabel node = some label)
    {method : MethodId} (current : builder.currentMethod = some method)
    (children : Nests inside visited) :
    ∃ inner, isBalanced inner = true ∧
      (leaving visited).model.statementsOf method =
        builder.model.statementsOf method ++ .openScope label :: (inner ++ [.closeScope]) := by
  cases opening with
  | nesting found wanted =>
      obtain rfl : found = label := Option.some.inj (wanted.symm.trans labelled)
      obtain ⟨inner, depth, appended⟩ := leaveScoped_appends nested children method
      refine ⟨inner, isBalanced_iff_scopeDepth.mpr depth, ?_⟩
      simpa [forOpen_of_eq current] using appended
  | plain kind =>
      unfold scopeLabel at labelled
      split at labelled <;> simp_all [Kind.isPlain]
  | namedClass _ kind _ | anonymousClass kind | method _ kind _ | ownerlessMethod kind _
  | lambda kind | switch kind | caseLabel kind | returnExit kind | creation kind
  | invocation kind =>
      simp [scopeLabel, kind] at labelled

/-- If visiting the children closes at most the scope of a case, so does the
whole visit. -/
theorem opening_nests (opening : Opening resolver node builder inside leaving)
    (nested : builder.Nested) (level : node.kind.isCase = true → builder.atCase = true)
    (children : Nests inside visited) : Nests builder (leaving visited) := by
  have keeps := opening_keeps opening children.toKeeps
  have encloses := fun enclosing => opening_encloses opening enclosing children
  cases opening with
  | namedClass _ kind _ | anonymousClass kind | method _ kind _ | ownerlessMethod kind _
  | lambda kind =>
      refine keeps.nests_of_frame_eq nested (encloses ?_) rfl
      simp [kind, Kind.isEnclosing]
  | nesting label labelled => exact leaveScoped_nests nested children
  | switch kind => exact leaveSwitch_nests nested children
  | @caseLabel label hasBody arrow kind =>
      have atCase := level (by simp [kind, Kind.isCase])
      have start := startCase_nests nested atCase (label.getD defaultLabel) hasBody
      have started := start.trans children
      split
      · exact started.trans (endCase_nests children.nested (started.toKeeps.atCase.trans atCase))
      · exact started
  | returnExit kind => exact children.trans (exitCase_nests children.nested false)
  | creation kind => exact (notes_nests nested (construct_notes ..)).trans children
  | invocation kind => exact (notes_nests nested (invoke_notes ..)).trans children
  | plain kind => exact children

/-- The role of a child is of no concern to the scopes. -/
theorem enterRole_nested (nested : builder.Nested) (child : Node) :
    (enterRole child builder).Nested := by
  rw [enterRole]
  split
  · exact ⟨nested.writable, nested.bodyDepth_le, nested.openScopes⟩
  · exact nested

theorem enterRole_atCase (child : Node) (builder : Builder) :
    (enterRole child builder).atCase = builder.atCase := by
  rw [enterRole]
  split <;> rfl

theorem visitChild_nests {child : Node} (nested : builder.Nested)
    (level : child.kind.isCase = true → builder.atCase = true)
    (visits : ∀ {builder : Builder}, builder.Nested →
      (child.kind.isCase = true → builder.atCase = true) →
      Nests builder (visit resolver child builder)) :
    Nests builder (visitChild resolver child builder) := by
  have entered := enterRole_nested nested child
  rw [← enterRole_atCase child] at level
  have visited := visits entered level
  unfold visitChild enterRole leaveRole at *
  split
  · next argument =>
      rw [if_pos argument] at visited
      exact
        { toKeeps := leaveArgument_keeps visited.toKeeps
          appends := visited.appends
          buried := visited.buried
          nested :=
            ⟨visited.nested.writable, visited.nested.bodyDepth_le, visited.nested.openScopes⟩ }
  · next other =>
      rw [if_neg other] at visited
      exact visited

/-- The visits of children one after the other, as long as labels among them are
at the level of their switch. -/
theorem visitAll_nests {children : List Node} (nested : builder.Nested)
    (level : ∀ child ∈ children, child.kind.isCase = true → builder.atCase = true)
    (each : ∀ child ∈ children, ∀ {builder : Builder}, builder.Nested →
      (child.kind.isCase = true → builder.atCase = true) →
      Nests builder (visit resolver child builder)) :
    Nests builder (visitAll resolver children builder) := by
  refine visitAll_related
    (fun builder => builder.Nested ∧
      ∀ child ∈ children, child.kind.isCase = true → builder.atCase = true)
    ?_ ?_ ?_ ⟨nested, level⟩
  · intro builder holds
    exact .refl holds.1
  · exact Nests.trans
  · rintro child member builder ⟨nested, level⟩
    have visited := visitChild_nests nested (level child member) (each child member)
    refine ⟨visited, visited.nested, ?_⟩
    intro later among isCase
    exact visited.toKeeps.atCase.trans (level later among isCase)

/-- The children of a node are visited one after the other, from a state that
accounts for its scopes. -/
theorem enter_nests (placed : node.CasesPlaced) (nested : builder.Nested)
    (level : node.kind.isCase = true → builder.atCase = true)
    (descended : node.kind.isDescended = true) {front : List Node}
    (members : ∀ child ∈ front, child ∈ node.children)
    (each : ∀ child ∈ node.children, child.CasesPlaced → ∀ {builder : Builder}, builder.Nested →
      (child.kind.isCase = true → builder.atCase = true) →
      Nests builder (visit resolver child builder)) :
    Nests (enter resolver node builder)
      (visitAll resolver front (enter resolver node builder)) := by
  have opening := opening_of_isDescended resolver builder descended
  obtain ⟨entered, atCase⟩ := opening_nested opening nested level
  apply visitAll_nests entered
  · intro child among isCase
    exact atCase (placed.kind_eq_switch (members child among) isCase)
  · intro child among builder
    exact each child (members child among) (placed.of_mem_children (members child among))

/-- A visit closes no scope of its surroundings but that of the case it stands in. -/
theorem visit_nests (resolver : Resolver) (placed : node.CasesPlaced) (nested : builder.Nested)
    (level : node.kind.isCase = true → builder.atCase = true) :
    Nests builder (visit resolver node builder) := by
  induction node using Node.inductionOnChildren generalizing builder with
  | step node ih =>
      cases descended : node.kind.isDescended with
      | true =>
          rw [visit_eq_leave resolver builder descended]
          have opening := opening_of_isDescended resolver builder descended
          apply opening_nests opening nested level
          exact enter_nests placed nested level descended (fun _ member => member)
            fun child member placed {_} => ih child member placed
      | false =>
          rw [visit_eq_visitLeaf resolver builder descended]
          exact visitLeaf_nests nested

theorem initial_nested (resolver : Resolver) (path : String) : (initial resolver path).Nested :=
  nested_of_fresh (initial_writable resolver path) rfl

/-- The walk of a tree comes to each of its nodes in a state that accounts for
the open scopes, and to each label at the level of its switch. -/
theorem Reaches.nested {reached : Node} {state : Builder}
    (reaches : Reaches resolver node builder reached state) (placed : node.CasesPlaced)
    (nested : builder.Nested) (level : node.kind.isCase = true → builder.atCase = true) :
    reached.CasesPlaced ∧ state.Nested ∧ (reached.kind.isCase = true → state.atCase = true) := by
  induction reaches with
  | self => exact ⟨placed, nested, level⟩
  | @inside node reached builder state before child after descended children onward ih =>
      have member : child ∈ node.children := by simp [children]
      have front : ∀ child ∈ before, child ∈ node.children := by
        intro child among
        simp [children, among]
      have opening := opening_of_isDescended resolver builder descended
      obtain ⟨_, atCase⟩ := opening_nested opening nested level
      have visited := enter_nests placed nested level descended front
        fun child _ placed {_} => visit_nests resolver placed
      apply ih (placed.of_mem_children member) (enterRole_nested visited.nested child)
      intro isCase
      rw [enterRole_atCase, visited.toKeeps.atCase]
      exact atCase (placed.kind_eq_switch member isCase)

/-- The visit of all children of a node. -/
theorem children_nests (resolver : Resolver) (placed : node.CasesPlaced) (nested : builder.Nested)
    (level : node.kind.isCase = true → builder.atCase = true)
    (descended : node.kind.isDescended = true) :
    Nests (enter resolver node builder)
      (visitAll resolver node.children (enter resolver node builder)) :=
  enter_nests placed nested level descended (fun _ member => member)
    fun _ _ placed {_} => visit_nests resolver placed

/-- A conditional or a loop appends its scope around balanced statements. -/
theorem visit_wraps (resolver : Resolver) (placed : node.CasesPlaced) (nested : builder.Nested)
    (level : node.kind.isCase = true → builder.atCase = true) {label : String}
    (labelled : scopeLabel node = some label) {method : MethodId}
    (current : builder.currentMethod = some method) :
    ∃ inner, isBalanced inner = true ∧
      (visit resolver node builder).model.statementsOf method =
        builder.model.statementsOf method ++ .openScope label :: (inner ++ [.closeScope]) := by
  have descended : node.kind.isDescended = true := by
    unfold scopeLabel at labelled
    split at labelled <;> simp_all [Kind.isDescended]
  rw [visit_eq_leave resolver builder descended]
  have opening := opening_of_isDescended resolver builder descended
  have children := children_nests resolver placed nested level descended
  exact opening_wraps opening nested labelled current children

/-- A switch and a body of its own append balanced statements. -/
theorem visit_encloses (resolver : Resolver) (placed : node.CasesPlaced) (nested : builder.Nested)
    (level : node.kind.isCase = true → builder.atCase = true)
    (enclosing : node.kind.isEnclosing = true) :
    Encloses builder (visit resolver node builder) := by
  have descended : node.kind.isDescended = true := by
    cases kind : node.kind <;> simp_all [Kind.isEnclosing, Kind.isDescended]
  rw [visit_eq_leave resolver builder descended]
  have opening := opening_of_isDescended resolver builder descended
  have children := children_nests resolver placed nested level descended
  exact opening_encloses opening enclosing children

end Builder

/-- In a tree whose labels stand directly in switches, scopes match the nesting
of the source, at every node that the walk comes to. A conditional or a loop
appends its own scope around balanced statements; a switch, a lambda, a class or a
method declaration appends balanced statements to every method; and within a
conditional or a loop nothing closes a scope that was open before. -/
theorem scopes_match_nesting {resolver : Resolver} {root node : Node} {path : String}
    {builder : Builder} (placed : root.CasesInSwitches)
    (reaches : Builder.Reaches resolver root (Builder.initial resolver path) node builder) :
    (∀ label, scopeLabel node = some label → ∀ method, builder.currentMethod = some method →
      ∃ inner, isBalanced inner = true ∧
        (builder.visit resolver node).model.statementsOf method =
          builder.model.statementsOf method ++ .openScope label :: (inner ++ [.closeScope])) ∧
    (node.kind.isEnclosing = true ∨ builder.atCase = false → ∀ method,
      ∃ added, isBalanced added = true ∧
        (builder.visit resolver node).model.statementsOf method =
          builder.model.statementsOf method ++ added) := by
  have rootLevel : root.kind.isCase = true → (Builder.initial resolver path).atCase = true := by
    simp [placed.1]
  obtain ⟨below, nested, level⟩ :=
    reaches.nested placed.2 (Builder.initial_nested resolver path) rootLevel
  constructor
  · intro label labelled method current
    exact Builder.visit_wraps resolver below nested level labelled current
  · intro apart method
    have encloses : Builder.Encloses builder (builder.visit resolver node) := by
      cases apart with
      | inl enclosing => exact Builder.visit_encloses resolver below nested level enclosing
      | inr away => exact (Builder.visit_nests resolver below nested level).encloses away
    obtain ⟨added, appended, depth⟩ := encloses method
    exact ⟨added, isBalanced_iff_scopeDepth.mpr depth, appended⟩

/-- A conditional that breaks out of the case it stands in. -/
def breakingBranch : Node :=
  .bare 5 .conditional [.bare 6 .breakExit []]

/-- A unit with the branch as the body of a case. -/
def breakingUnit : Node :=
  .bare 0 .compilationUnit
    [.bare 1 (.classDecl "Door" .classType)
      [.bare 2 (.methodDecl "open")
        [.bare 3 .switch [.bare 4 (.caseLabel (some "1") true false) [breakingBranch]]]]]

theorem breakingBranch_closes_own_scope :
    ∃ builder, Builder.Reaches .silent breakingUnit (Builder.initial .silent "Door.java")
        breakingBranch builder ∧
      builder.model.statementsOf 0 = [.openScope "[ == 1]"] ∧
      ∃ inner, isBalanced inner = true ∧
        (builder.visit .silent breakingBranch).model.statementsOf 0 =
          [.openScope "[ == 1]"] ++ .openScope "[]" :: (inner ++ [.closeScope]) := by
  have placed : breakingUnit.CasesInSwitches := by
    unfold Node.CasesInSwitches Node.CasesPlaced
    decide
  have reaches : Builder.Reaches .silent breakingUnit (Builder.initial .silent "Door.java")
      breakingBranch _ :=
    .inside [] _ [] rfl rfl (.inside [] _ [] rfl rfl (.inside [] _ [] rfl rfl
      (.inside [] _ [] rfl rfl (.inside [] _ [] rfl rfl .self))))
  exact ⟨_, reaches, rfl, (scopes_match_nesting placed reaches).1 _ rfl 0 rfl⟩

end JavaStructure
