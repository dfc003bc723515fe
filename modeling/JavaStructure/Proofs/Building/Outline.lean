/-
# What a visit leaves as it was

A visit changes the model, the number of open scopes and the progress of the
innermost switch, and nothing else of the state of the walk; and it only adds to
the model. Both hold from every state, of every tree, and together say what a
construct may rely on after the visit of its children.
-/

import JavaStructure.Proofs.Building.Visit

namespace JavaStructure

open Syntax (Node Role Kind)

namespace CaseGuard

/-- A guard as it was when its switch was entered. -/
def atStart (guard : CaseGuard) : CaseGuard :=
  { subject := guard.subject
    loopDepth := guard.loopDepth
    bodyDepth := guard.bodyDepth }

theorem endCase_atStart (guard : CaseGuard) : guard.endCase.2.atStart = guard.atStart := rfl

theorem startCase_atStart (guard : CaseGuard) (label : String) (hasBody : Bool) :
    (guard.startCase label hasBody).2.atStart = guard.atStart := by
  unfold startCase settle
  cases guard.endPending <;> rfl

theorem deferEnd_atStart (guard : CaseGuard) : guard.deferEnd.atStart = guard.atStart := by
  rw [deferEnd]
  split <;> rfl

end CaseGuard

/-- The part of the state of a walk that a visit leaves as it was: all but the
model, the number of open scopes and the progress of the innermost switch. -/
structure Outline where
  currentClass : Option TypeId
  currentMethod : Option MethodId
  anonymousDepth : Nat
  depth : Nat
  loopDepth : Nat
  argumentDepth : Nat
  /-- The switches of the body, the innermost one as it was entered. -/
  switches : List CaseGuard

namespace Builder

variable {resolver : Resolver} {node : Node} {builder before middle after inside visited : Builder}
variable {leaving : Builder → Builder} {guard : CaseGuard} {outer : List CaseGuard}

/-- The outline of a state. -/
def outline (builder : Builder) : Outline :=
  { currentClass := builder.currentClass
    currentMethod := builder.currentMethod
    anonymousDepth := builder.anonymousDepth
    depth := builder.frame.depth
    loopDepth := builder.frame.loopDepth
    argumentDepth := builder.frame.argumentDepth
    switches := builder.frame.switches.modifyHead CaseGuard.atStart }

/-- The outline stays and the model grows. -/
structure Keeps (before after : Builder) : Prop where
  outline : after.outline = before.outline
  grows : before.model.Grows after.model

namespace Keeps

theorem refl (builder : Builder) : Keeps builder builder :=
  ⟨rfl, Model.Grows.refl _⟩

theorem trans (first : Keeps before middle) (second : Keeps middle after) : Keeps before after :=
  ⟨second.outline.trans first.outline, first.grows.trans second.grows⟩

theorem currentClass (keeps : Keeps before after) : after.currentClass = before.currentClass :=
  congrArg Outline.currentClass keeps.outline

theorem currentMethod (keeps : Keeps before after) : after.currentMethod = before.currentMethod :=
  congrArg Outline.currentMethod keeps.outline

theorem anonymousDepth (keeps : Keeps before after) :
    after.anonymousDepth = before.anonymousDepth :=
  congrArg Outline.anonymousDepth keeps.outline

theorem depth (keeps : Keeps before after) : after.frame.depth = before.frame.depth :=
  congrArg Outline.depth keeps.outline

theorem loopDepth (keeps : Keeps before after) : after.frame.loopDepth = before.frame.loopDepth :=
  congrArg Outline.loopDepth keeps.outline

theorem argumentDepth (keeps : Keeps before after) :
    after.frame.argumentDepth = before.frame.argumentDepth :=
  congrArg Outline.argumentDepth keeps.outline

theorem switches (keeps : Keeps before after) :
    after.frame.switches.modifyHead CaseGuard.atStart =
      before.frame.switches.modifyHead CaseGuard.atStart :=
  congrArg Outline.switches keeps.outline

/-- A body without a switch stays without one. -/
theorem switches_nil (keeps : Keeps before after) (none : before.frame.switches = []) :
    after.frame.switches = [] := by
  simpa [none] using keeps.switches

/-- The innermost switch stays the same switch, and those around it do not move. -/
theorem switches_cons (keeps : Keeps before after)
    (innermost : before.frame.switches = guard :: outer) :
    ∃ changed, after.frame.switches = changed :: outer ∧ changed.atStart = guard.atStart := by
  have switches := keeps.switches
  rw [innermost] at switches
  cases found : after.frame.switches with
  | nil => simp [found] at switches
  | cons changed rest =>
      simp only [found, List.modifyHead_cons, List.cons.injEq] at switches
      exact ⟨changed, by rw [switches.2], switches.1⟩

/-- Whatever only registers keeps the outline. -/
theorem of_registers (registers : Registers before after) : Keeps before after := by
  refine ⟨?_, registers.model.toGrows⟩
  rw [registers.same]
  rfl

end Keeps

theorem record_keeps (builder : Builder) (statement : Statement) :
    Keeps builder (builder.record statement) := by
  rw [record]
  split
  · exact ⟨rfl, Model.addStatement_grows ..⟩
  · exact .refl builder

/-- The number of open scopes does not belong to the outline. -/
theorem withOpenScopes_keeps (builder : Builder) (openScopes : Nat) :
    Keeps builder (builder.withFrame { builder.frame with openScopes }) :=
  ⟨rfl, Model.Grows.refl _⟩

theorem openScope_keeps (builder : Builder) (condition : String) :
    Keeps builder (builder.openScope condition) := by
  rw [openScope]
  split
  · exact (withOpenScopes_keeps builder _).trans (record_keeps _ _)
  · exact .refl builder

theorem closeScope_keeps (builder : Builder) : Keeps builder builder.closeScope := by
  rw [closeScope]
  split
  · exact .refl builder
  · exact (withOpenScopes_keeps builder _).trans (record_keeps _ _)

theorem closeScopes_keeps (count : Nat) (builder : Builder) :
    Keeps builder (closeScopes count builder) := by
  induction count generalizing builder with
  | zero => exact .refl builder
  | succ count ih => exact (closeScope_keeps builder).trans (ih _)

theorem apply_keeps (builder : Builder) (action : ScopeAction) :
    Keeps builder (builder.apply action) := by
  cases action with
  | openScope condition => exact openScope_keeps builder condition
  | closeScope => exact closeScope_keeps builder

theorem applyAll_keeps (builder : Builder) (actions : List ScopeAction) :
    Keeps builder (builder.applyAll actions) := by
  induction actions generalizing builder with
  | nil => exact .refl builder
  | cons action rest ih => exact (apply_keeps builder action).trans (ih _)

/-- Progress of the innermost switch keeps the outline. -/
theorem withGuard_keeps {changed : CaseGuard} (innermost : builder.frame.switches = guard :: outer)
    (same : changed.atStart = guard.atStart) : Keeps builder (builder.withGuard changed outer) := by
  refine ⟨?_, Model.Grows.refl _⟩
  simp [outline, withGuard, withFrame, innermost, same]

theorem endCase_keeps (builder : Builder) : Keeps builder builder.endCase := by
  rw [endCase]
  split
  · exact .refl builder
  · next guard outer innermost =>
      exact (withGuard_keeps innermost guard.endCase_atStart).trans (applyAll_keeps _ _)

theorem startCase_keeps (builder : Builder) (label : String) (hasBody : Bool) :
    Keeps builder (builder.startCase label hasBody) := by
  rw [startCase]
  split
  · exact .refl builder
  · next guard outer innermost =>
      exact (withGuard_keeps innermost (guard.startCase_atStart label hasBody)).trans
        (applyAll_keeps _ _)

theorem exitCase_keeps (builder : Builder) (isBreak : Bool) :
    Keeps builder (builder.exitCase isBreak) := by
  rw [exitCase]
  split
  · exact .refl builder
  · next guard outer innermost =>
      split
      · exact endCase_keeps builder
      · exact withGuard_keeps innermost guard.deferEnd_atStart
      · exact .refl builder

theorem notes_keeps (notes : Notes before after) : Keeps before after := by
  cases notes with
  | silent refers => exact .of_registers refers.registers
  | call refers _ _ | variableUse refers _ _ _ =>
      exact (Keeps.of_registers refers.registers).trans (record_keeps _ _)

theorem visitLeaf_keeps (resolver : Resolver) (node : Node) (builder : Builder) :
    Keeps builder (visitLeaf resolver node builder) := by
  rw [visitLeaf]
  split
  · exact Keeps.of_registers (Mentions.of_model (Model.addImport_mentions ..)).registers
  · exact exitCase_keeps builder true
  · exact notes_keeps (useVariable_notes ..)
  · exact .refl builder

/-- Leaving a body goes back to the outline around it, whatever the body did. -/
theorem leaveBody_keeps (grows : builder.model.Grows visited.model)
    (currentClass : visited.currentClass = builder.currentClass)
    (currentMethod : visited.currentMethod = builder.currentMethod)
    (anonymousDepth : visited.anonymousDepth = builder.anonymousDepth) :
    Keeps builder (visited.leaveBody builder.frame) := by
  have closed := closeScopes_keeps visited.frame.openScopes visited
  refine ⟨?_, grows.trans closed.grows⟩
  simp [outline, leaveBody, closeOpenScopes, withFrame, closed.currentClass, closed.currentMethod,
    closed.anonymousDepth, currentClass, currentMethod, anonymousDepth]

theorem leaveScoped_keeps {label : String} {isLoop : Bool}
    (children : Keeps (builder.enterScoped label isLoop) visited) :
    Keeps builder (visited.leaveScoped isLoop) := by
  have opened := openScope_keeps builder label
  refine Keeps.trans (?_ : Keeps builder (visited.withFrame _)) (closeScope_keeps _)
  refine ⟨?_, opened.grows.trans children.grows⟩
  have depth := children.depth
  have loopDepth := children.loopDepth
  have switches := children.switches
  simp only [enterScoped, withFrame, opened.depth, opened.loopDepth, opened.switches]
    at depth loopDepth switches
  simp only [outline, withFrame, children.currentClass.trans opened.currentClass,
    children.currentMethod.trans opened.currentMethod,
    children.anonymousDepth.trans opened.anonymousDepth,
    children.argumentDepth.trans opened.argumentDepth, switches, depth, loopDepth]
  cases isLoop <;> simp

theorem leaveSwitch_keeps (children : Keeps (builder.enterSwitch node) visited) :
    Keeps builder visited.leaveSwitch := by
  obtain ⟨guard, innermost, same⟩ := children.switches_cons rfl
  rw [leaveSwitch]
  rw [innermost]
  refine Keeps.trans (?_ : Keeps builder (visited.withFrame _)) (applyAll_keeps _ _)
  refine ⟨?_, children.grows⟩
  simp [outline, withFrame, children.currentClass, children.currentMethod,
    children.anonymousDepth, children.depth, children.loopDepth, children.argumentDepth,
    enterSwitch]

/-- If visiting the children keeps what it finds, so does the whole visit. -/
theorem opening_keeps (opening : Opening resolver node builder inside leaving)
    (children : Keeps inside visited) : Keeps builder (leaving visited) := by
  cases opening with
  | namedClass qualified kind named =>
      have mentions := declareClass_mentions resolver builder node qualified
      exact ⟨rfl, mentions.model.toGrows.trans children.grows⟩
  | anonymousClass kind =>
      refine leaveBody_keeps children.grows children.currentClass children.currentMethod ?_
      simp [children.anonymousDepth]
  | @method name owner kind owned =>
      have registers := declareMethod_registers resolver builder node owner name
      have closed := closeScopes_keeps visited.frame.openScopes visited
      refine ⟨?_, (registers.model.toGrows.trans children.grows).trans closed.grows⟩
      have currentClass := closed.currentClass.trans children.currentClass
      have anonymousDepth := closed.anonymousDepth.trans children.anonymousDepth
      rw [registers.same] at currentClass anonymousDepth
      simp [outline, leaveMethod, closeOpenScopes, currentClass, anonymousDepth, enterMethod,
        withModel]
  | ownerlessMethod _ _ | lambda _ =>
      exact leaveBody_keeps children.grows children.currentClass children.currentMethod
        children.anonymousDepth
  | nesting label labelled => exact leaveScoped_keeps children
  | switch kind => exact leaveSwitch_keeps children
  | caseLabel kind =>
      have started := (startCase_keeps builder _ _).trans children
      split
      · exact started.trans (endCase_keeps visited)
      · exact started
  | returnExit kind => exact children.trans (exitCase_keeps visited false)
  | creation kind => exact (notes_keeps (construct_notes resolver builder node)).trans children
  | invocation kind => exact (notes_keeps (invoke_notes resolver builder node _)).trans children
  | plain kind => exact children

/-- The argument depth is changed only as long as an argument is visited. -/
theorem leaveArgument_keeps (kept : Keeps builder.enterArgument visited) :
    Keeps builder visited.leaveArgument := by
  refine ⟨?_, kept.grows⟩
  simp only [outline, leaveArgument, withFrame, kept.currentClass, kept.currentMethod,
    kept.anonymousDepth, kept.depth, kept.loopDepth, kept.argumentDepth, kept.switches]
  simp [enterArgument, withFrame]

theorem visitChild_keeps {child : Node}
    (each : ∀ builder, Keeps builder (visit resolver child builder)) (builder : Builder) :
    Keeps builder (visitChild resolver child builder) := by
  unfold visitChild enterRole leaveRole
  split
  · exact leaveArgument_keeps (each builder.enterArgument)
  · exact each builder

/-- A visit leaves the outline as it was, and the model only grows. -/
theorem visit_keeps (resolver : Resolver) (node : Node) (builder : Builder) :
    Keeps builder (visit resolver node builder) := by
  induction node using Node.inductionOnChildren generalizing builder with
  | step node ih =>
      cases descended : node.kind.isDescended with
      | true =>
          rw [visit_eq_leave resolver builder descended]
          apply opening_keeps (opening_of_isDescended resolver builder descended)
          exact visitAll_related (fun _ => True) (fun builder _ => Keeps.refl builder) Keeps.trans
            (fun child member builder _ => ⟨visitChild_keeps (ih child member) builder, trivial⟩)
            trivial
      | false =>
          rw [visit_eq_visitLeaf resolver builder descended]
          exact visitLeaf_keeps resolver node builder

theorem visitAll_keeps (resolver : Resolver) (children : List Node) (builder : Builder) :
    Keeps builder (visitAll resolver children builder) :=
  visitAll_related (fun _ => True) (fun builder _ => Keeps.refl builder) Keeps.trans
    (fun child _ builder _ => ⟨visitChild_keeps (visit_keeps resolver child) builder, trivial⟩)
    trivial

end Builder

end JavaStructure
