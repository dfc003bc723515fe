/-
# Every method is balanced

Scopes are opened and closed in many places, and a nested body may write into
the method of the body around it. Each frame counts the scopes it has opened and
not closed, and that count is the invariant: whatever a visit appends takes its
method from the count before to the count after, and a body closes what is left
of its own. Nothing is assumed about the tree; labels without a switch, stray
exits and repeated node ids are all covered.
-/

import JavaStructure.Proofs.Building.Statements

namespace JavaStructure

open Syntax (Node)

namespace Builder

variable {resolver : Resolver} {node : Node} {builder before after inside visited : Builder}
variable {leaving : Builder → Builder} {id : MethodId}

/-- How many scopes the current frame has open in a method. -/
def openIn (builder : Builder) (id : MethodId) : Nat :=
  if builder.currentMethod = some id then builder.frame.openScopes else 0

/-- What is appended to each method takes it from the scopes that the frame had
open before to those it has open after. -/
abbrev Balances (before after : Builder) : Prop := Appends openIn before after

/-- A state of the same method with as many open scopes has the same count. -/
theorem openIn_congr (currentMethod : after.currentMethod = before.currentMethod)
    (openScopes : after.frame.openScopes = before.frame.openScopes) (id : MethodId) :
    after.openIn id = before.openIn id := by
  simp [openIn, currentMethod, openScopes]

theorem openIn_eq_zero (none : builder.frame.openScopes = 0) (id : MethodId) :
    builder.openIn id = 0 := by
  simp [openIn, none]

theorem openIn_of_none (none : builder.currentMethod = none) (id : MethodId) :
    builder.openIn id = 0 := by
  simp [openIn, none]

theorem mentions_balances (mentions : Mentions before after) : Balances before after := by
  refine .of_eq mentions.model.statements ?_
  rw [mentions.same]
  exact fun _ => rfl

theorem withFrame_balances {frame : Frame} (same : frame.openScopes = builder.frame.openScopes) :
    Balances builder (builder.withFrame frame) :=
  .of_eq (fun _ => rfl) (openIn_congr rfl same)

/-- A statement that is no scope leaves the count. -/
theorem record_balances (writable : builder.Writable) {statement : Statement}
    (neutral : scopeDepth 0 [statement] = some 0) :
    Balances builder (builder.record statement) := by
  intro id
  refine ⟨_, statementsOf_record writable statement id, ?_⟩
  rw [openIn_congr (record_keeps builder statement).currentMethod (by simp)]
  rw [forOpen]
  split
  · simpa using scopeDepth_add (builder.openIn id) neutral
  · rfl

theorem openScope_balances (writable : builder.Writable) (condition : String) :
    Balances builder (builder.openScope condition) := by
  intro id
  refine ⟨_, statementsOf_openScope writable condition id, ?_⟩
  have current := (openScope_keeps builder condition).currentMethod
  by_cases opened : builder.currentMethod = some id
  · simp [openIn, forOpen, current, opened, openScope_frame, scopeDepth]
  · simp [openIn, forOpen, current, opened]

theorem closeScope_balances (writable : builder.Writable) :
    Balances builder builder.closeScope := by
  cases count : builder.frame.openScopes with
  | zero =>
      rw [closeScope_of_eq_zero count]
      exact .refl builder
  | succ rest =>
      intro id
      refine ⟨_, statementsOf_closeScope writable (by omega) id, ?_⟩
      have current := (closeScope_keeps builder).currentMethod
      by_cases opened : builder.currentMethod = some id
      · simp [openIn, forOpen, current, opened, closeScope_frame, count, scopeDepth]
      · simp [openIn, forOpen, current, opened]

theorem apply_balances (writable : builder.Writable) (action : ScopeAction) :
    Balances builder (builder.apply action) := by
  cases action with
  | openScope condition => exact openScope_balances writable condition
  | closeScope => exact closeScope_balances writable

theorem applyAll_balances (writable : builder.Writable) (actions : List ScopeAction) :
    Balances builder (builder.applyAll actions) := by
  induction actions generalizing builder with
  | nil => exact .refl builder
  | cons action rest ih =>
      exact (apply_balances writable action).trans
        (ih ((apply_keeps builder action).writable writable))

theorem endCase_balances (writable : builder.Writable) : Balances builder builder.endCase := by
  rw [endCase]
  split
  · exact .refl builder
  · exact (withFrame_balances rfl).trans (applyAll_balances (writable.withFrame _) _)

theorem startCase_balances (writable : builder.Writable) (label : String) (hasBody : Bool) :
    Balances builder (builder.startCase label hasBody) := by
  rw [startCase]
  split
  · exact .refl builder
  · exact (withFrame_balances rfl).trans (applyAll_balances (writable.withFrame _) _)

theorem exitCase_balances (writable : builder.Writable) (isBreak : Bool) :
    Balances builder (builder.exitCase isBreak) := by
  rw [exitCase]
  split
  · exact .refl builder
  · split
    · exact endCase_balances writable
    · exact withFrame_balances rfl
    · exact .refl builder

theorem closeScopes_openScopes (count : Nat) (builder : Builder) :
    (closeScopes count builder).frame.openScopes = builder.frame.openScopes - count := by
  induction count generalizing builder with
  | zero => rfl
  | succ count ih =>
      rw [closeScopes, ih, closeScope_frame]
      simp only
      omega

/-- Closing the open scopes of a body leaves none. -/
theorem closeOpenScopes_openScopes (builder : Builder) :
    builder.closeOpenScopes.frame.openScopes = 0 := by
  rw [closeOpenScopes, closeScopes_openScopes]
  omega

theorem closeScopes_balances (count : Nat) (writable : builder.Writable) :
    Balances builder (closeScopes count builder) := by
  induction count generalizing builder with
  | zero => exact .refl builder
  | succ count ih =>
      exact (closeScope_balances writable).trans
        (ih ((closeScope_keeps builder).writable writable))

/-- What a body with a frame of its own appends is balanced once its scopes are
closed. -/
theorem body_encloses (children : Balances inside visited) (writable : visited.Writable)
    (fresh : inside.frame.openScopes = 0) : Encloses inside visited.closeOpenScopes := by
  have closed := children.trans (closeScopes_balances visited.frame.openScopes writable)
  exact closed.encloses (openIn_eq_zero fresh)
    (openIn_eq_zero (closeOpenScopes_openScopes visited))

/-- A body leaves every count as it was. -/
theorem leaveBody_balances (children : Balances inside visited) (writable : visited.Writable)
    (fresh : inside.frame.openScopes = 0) (entered : inside.model = builder.model)
    (currentMethod : visited.currentMethod = builder.currentMethod) :
    Balances builder (visited.leaveBody builder.frame) := by
  have encloses : Encloses builder (visited.leaveBody builder.frame) :=
    (body_encloses children writable fresh).congr (fun id => by rw [entered]) (fun _ => rfl)
  apply encloses.appends
  have closed := (closeScopes_keeps visited.frame.openScopes visited).currentMethod
  exact openIn_congr (closed.trans currentMethod) rfl

theorem notes_balances (writable : before.Writable) (notes : Notes before after) :
    Balances before after := by
  cases notes with
  | silent refers => exact mentions_balances refers.toMentions
  | call refers _ _ | variableUse refers _ _ _ =>
      have kept := (Keeps.of_registers refers.registers).writable writable
      exact (mentions_balances refers.toMentions).trans (record_balances kept rfl)

theorem visitLeaf_balances (writable : builder.Writable) :
    Balances builder (visitLeaf resolver node builder) := by
  rw [visitLeaf]
  split
  · exact mentions_balances (.of_model (Model.addImport_mentions ..))
  · exact exitCase_balances writable true
  · exact notes_balances writable (useVariable_notes ..)
  · exact .refl builder

/-- If visiting the children balances, so does the whole visit. -/
theorem opening_balances (opening : Opening resolver node builder inside leaving)
    (writable : builder.Writable) (children : Balances inside visited)
    (kept : Keeps inside visited) : Balances builder (leaving visited) := by
  have visitedWritable := kept.writable (opening_writable opening writable)
  cases opening with
  | namedClass qualified kind named =>
      have mentions := declareClass_mentions resolver builder node qualified
      have encloses := children.encloses (openIn_of_none rfl) (openIn_of_none kept.currentMethod)
      have whole : Encloses builder (visited.leaveClass builder) :=
        encloses.congr mentions.model.statements (fun _ => rfl)
      exact whole.appends (fun _ => rfl)
  | anonymousClass kind =>
      have lowered :
          Balances _ { visited with anonymousDepth := visited.anonymousDepth - 1 } := children
      exact leaveBody_balances lowered visitedWritable rfl rfl kept.currentMethod
  | @method name owner kind owned =>
      have registers := declareMethod_registers resolver builder node owner name
      have encloses := body_encloses children visitedWritable rfl
      have whole : Encloses builder (visited.leaveMethod builder) :=
        encloses.congr registers.model.statements (fun _ => rfl)
      exact whole.appends (fun _ => rfl)
  | ownerlessMethod _ _ | lambda _ =>
      exact leaveBody_balances children visitedWritable rfl rfl kept.currentMethod
  | nesting label labelled =>
      have opened := openScope_balances writable label
      have entered : Balances builder (builder.enterScoped label node.kind.isLoop) :=
        opened.trans (withFrame_balances rfl)
      exact (entered.trans children).trans
        ((withFrame_balances rfl).trans (closeScope_balances (visitedWritable.withFrame _)))
  | switch kind =>
      have entered : Balances builder (builder.enterSwitch node) := withFrame_balances rfl
      apply (entered.trans children).trans
      rw [leaveSwitch]
      split
      · exact .refl visited
      · exact (withFrame_balances rfl).trans (applyAll_balances (visitedWritable.withFrame _) _)
  | caseLabel kind =>
      apply ((startCase_balances writable _ _).trans children).trans
      split
      · exact endCase_balances visitedWritable
      · exact .refl visited
  | returnExit kind => exact children.trans (exitCase_balances visitedWritable false)
  | creation kind => exact (notes_balances writable (construct_notes ..)).trans children
  | invocation kind => exact (notes_balances writable (invoke_notes ..)).trans children
  | plain kind => exact children

theorem visitChild_balances {child : Node}
    (each : ∀ {builder : Builder}, builder.Writable →
      Balances builder (visit resolver child builder))
    (writable : builder.Writable) : Balances builder (visitChild resolver child builder) := by
  unfold visitChild enterRole leaveRole
  split
  · exact each writable
  · exact each writable

/-- A visit balances, wherever it starts. -/
theorem visit_balances (resolver : Resolver) (node : Node) (writable : builder.Writable) :
    Balances builder (visit resolver node builder) := by
  induction node using Node.inductionOnChildren generalizing builder with
  | step node ih =>
      cases descended : node.kind.isDescended with
      | true =>
          rw [visit_eq_leave resolver builder descended]
          have opening := opening_of_isDescended resolver builder descended
          refine opening_balances opening writable ?_ (visitAll_keeps resolver _ _)
          refine visitAll_related Writable (fun builder _ => Appends.refl builder) Appends.trans ?_
            (opening_writable opening writable)
          intro child member builder writable
          refine ⟨?_, (visitChild_keeps (visit_keeps resolver child) builder).writable writable⟩
          exact visitChild_balances (ih child member) writable
      | false =>
          rw [visit_eq_visitLeaf resolver builder descended]
          exact visitLeaf_balances writable

end Builder

/-- Every method of the model of a unit is well nested: no prefix of its
statements closes more scopes than it opened, and all are closed in the end. -/
theorem ofUnit_isBalanced (resolver : Resolver) (root : Node) (path : String) :
    ∀ method ∈ (Model.ofUnit resolver root path).methods,
      (∀ count, closings (method.statements.take count) ≤
          openings (method.statements.take count)) ∧
        closings method.statements = openings method.statements ∧
        isBalanced method.statements = true := by
  intro method member
  obtain ⟨id, found⟩ := List.mem_iff_getElem?.mp member
  have statements : (Model.ofUnit resolver root path).statementsOf id = method.statements := by
    simp [Model.statementsOf, found]
  obtain ⟨added, appended, depth⟩ :=
    Builder.visit_balances resolver root (Builder.initial_writable resolver path) id
  have kept := Builder.visit_keeps resolver root (Builder.initial resolver path)
  rw [Builder.openIn_of_none rfl, Builder.openIn_of_none kept.currentMethod] at depth
  have balanced : isBalanced method.statements = true := by
    rw [isBalanced_iff_scopeDepth, ← statements, Builder.ofUnit_eq_visit, appended]
    exact depth
  obtain ⟨prefixes, total⟩ := isBalanced_iff.mp balanced
  exact ⟨prefixes, total, balanced⟩

/-- A unit with a label outside of any switch, stray exits, a lambda that leaves
a case open and a repeated node id. -/
def strayUnit : Node :=
  .bare 0 .compilationUnit
    [.bare 1 (.classDecl "Door" .classType)
      [.bare 2 (.methodDecl "open")
        [.bare 3 (.caseLabel (some "1") true true) [.bare 4 .breakExit []],
          .bare 4 .conditional [.bare 5 .returnExit []],
          .bare 6 .lambda
            [.bare 7 .switch
              [.bare 8 (.caseLabel none true false)
                [.bare 9 .whileLoop [.bare 10 .breakExit []]]]]]]]

/-- The method that the walk of the unit finds. -/
def strayMethod : Method :=
  { owner := 0
    name := "open"
    origin := .node 2
    parameters := []
    statements :=
      [.openScope "[]", .closeScope, .openScope "[ == [default]]", .openScope "*[]", .closeScope,
        .closeScope] }

theorem strayMethod_isBalanced :
    strayMethod ∈ (Model.ofUnit .silent strayUnit "Door.java").methods ∧
      closings strayMethod.statements = openings strayMethod.statements ∧
      isBalanced strayMethod.statements = true := by
  have methods : (Model.ofUnit .silent strayUnit "Door.java").methods = [strayMethod] := rfl
  have member : strayMethod ∈ (Model.ofUnit .silent strayUnit "Door.java").methods := by
    rw [methods]
    exact List.mem_singleton_self strayMethod
  exact ⟨member, (ofUnit_isBalanced .silent strayUnit "Door.java" strayMethod member).2⟩

end JavaStructure
