/-
# The model of a condensed tree

A tree and its condensed form are walked side by side. The resolvers answer alike, a binary
expression does nothing but to visit its operands, and node ids only tell methods apart, so the
two walks go through the same states but for the ids. The document is the same.
-/

import JavaStructure.Proofs.Building.Visit
import JavaStructure.Proofs.Model.Renaming
import JavaStructure.Proofs.Resolution.Condensed

namespace JavaStructure

open Syntax (Node Kind Role binaryKind)
open Syntax.Node (condensed condensed_children_of_ne childAs_condensed childrenAs_condensed
  gathered spread)

variable {rename : Nat → Nat} {resolver resolverToo : Resolver} {node : Node}

namespace Resolver.Renames

variable (alike : Resolver.Renames rename resolver resolverToo)

include alike

theorem scopeLookup (node : Node) :
    resolverToo.scopeLookup (node.condensed rename) = resolver.scopeLookup node := by
  simp only [Resolver.scopeLookup, alike.scope, Node.condensed_name?, Node.condensed_text]

theorem identifierType (node : Node) :
    resolverToo.identifierType (node.condensed rename) = resolver.identifierType node := by
  simp only [Resolver.identifierType, alike.symbol, alike.scopeLookup]

theorem variableOwner (node : Node) :
    resolverToo.variableOwner (node.condensed rename) = resolver.variableOwner node := by
  simp only [Resolver.variableOwner, alike.symbol, alike.scope]

theorem typeName (packageName : String) (node : Node) :
    resolverToo.typeName packageName (node.condensed rename) =
      resolver.typeName packageName node := by
  rw [Resolver.typeName, Resolver.typeName, Node.condensed_kind]
  cases kind : node.kind with
  | creation =>
      dsimp only
      rw [childAs_condensed rename (by simp [kind, binaryKind])]
      cases node.childAs .identifier <;> simp [alike.identifierType]
  | parameterizedType | invocation _ => simp only [alike.symbol]
  | identifier _ _ => exact alike.identifierType node
  | _ => rfl

end Resolver.Renames

theorem textInRole_condensed (rename : Nat → Nat) (other : node.kind ≠ binaryKind) (role : Role) :
    textInRole (node.condensed rename) role = textInRole node role := by
  rw [textInRole, textInRole, childAs_condensed rename other]
  cases node.childAs role <;> simp

theorem scopeLabel_condensed (rename : Nat → Nat) (node : Node) :
    scopeLabel (node.condensed rename) = scopeLabel node := by
  rw [scopeLabel, scopeLabel, Node.condensed_kind]
  cases kind : node.kind with
  | conditional | forLoop | whileLoop | doWhileLoop | enhancedFor =>
      have other : node.kind ≠ binaryKind := by simp [kind, binaryKind]
      simp only [textInRole_condensed rename other]
  | _ => rfl

namespace Builder

/-- A state of the walk under other node ids. -/
def renamed (rename : Nat → Nat) (builder : Builder) : Builder :=
  { builder with model := builder.model.renamed rename }

variable {builder : Builder}

@[simp]
theorem renamed_frame (rename : Nat → Nat) (builder : Builder) :
    (builder.renamed rename).frame = builder.frame := rfl

@[simp]
theorem renamed_currentMethod (rename : Nat → Nat) (builder : Builder) :
    (builder.renamed rename).currentMethod = builder.currentMethod := rfl

@[simp]
theorem renamed_methodOwner (rename : Nat → Nat) (builder : Builder) :
    (builder.renamed rename).methodOwner = builder.methodOwner := rfl

@[simp]
theorem renamed_model (rename : Nat → Nat) (builder : Builder) :
    (builder.renamed rename).model = builder.model.renamed rename := rfl

@[simp]
theorem renamed_withFrame (rename : Nat → Nat) (builder : Builder) (frame : Frame) :
    (builder.renamed rename).withFrame frame = (builder.withFrame frame).renamed rename := rfl

@[simp]
theorem renamed_withModel (rename : Nat → Nat) (builder : Builder) (model : Model) :
    (builder.renamed rename).withModel (model.renamed rename) =
      (builder.withModel model).renamed rename := rfl

theorem intern_renamed (rename : Nat → Nat) (builder : Builder) (name : String) :
    (builder.renamed rename).intern name =
      ((builder.intern name).1, (builder.intern name).2.renamed rename) := by
  simp only [intern, renamed, Model.intern_renamed]
  rfl

theorem record_renamed (rename : Nat → Nat) (builder : Builder) (statement : Statement) :
    (builder.renamed rename).record statement = (builder.record statement).renamed rename := by
  simp only [record, renamed, Model.addStatement_renamed]
  split <;> rfl

theorem openScope_renamed (rename : Nat → Nat) (builder : Builder) (condition : String) :
    (builder.renamed rename).openScope condition =
      (builder.openScope condition).renamed rename := by
  rw [openScope, openScope, renamed_currentMethod]
  split
  · simp only [renamed_frame, renamed_withFrame, record_renamed]
  · rfl

theorem closeScope_renamed (rename : Nat → Nat) (builder : Builder) :
    (builder.renamed rename).closeScope = builder.closeScope.renamed rename := by
  rw [closeScope, closeScope, renamed_frame]
  split
  · rfl
  · rw [renamed_withFrame, record_renamed]

theorem closeScopes_renamed (rename : Nat → Nat) (count : Nat) (builder : Builder) :
    closeScopes count (builder.renamed rename) = (closeScopes count builder).renamed rename := by
  induction count generalizing builder with
  | zero => rfl
  | succ count ih => rw [closeScopes, closeScopes, closeScope_renamed, ih]

theorem closeOpenScopes_renamed (rename : Nat → Nat) (builder : Builder) :
    (builder.renamed rename).closeOpenScopes = builder.closeOpenScopes.renamed rename :=
  closeScopes_renamed rename builder.frame.openScopes builder

theorem applyAll_renamed (rename : Nat → Nat) (builder : Builder) (actions : List ScopeAction) :
    (builder.renamed rename).applyAll actions = (builder.applyAll actions).renamed rename := by
  induction actions generalizing builder with
  | nil => rfl
  | cons action rest ih =>
      have applied : (builder.renamed rename).apply action =
          (builder.apply action).renamed rename := by
        cases action with
        | openScope condition => exact openScope_renamed rename builder condition
        | closeScope => exact closeScope_renamed rename builder
      rw [applyAll, List.foldl_cons, applied]
      exact ih _

theorem endCase_renamed (rename : Nat → Nat) (builder : Builder) :
    (builder.renamed rename).endCase = builder.endCase.renamed rename := by
  rw [endCase, endCase, renamed_frame]
  split
  · rfl
  · exact applyAll_renamed rename (builder.withGuard _ _) _

theorem startCase_renamed (rename : Nat → Nat) (builder : Builder) (label : String)
    (hasBody : Bool) :
    (builder.renamed rename).startCase label hasBody =
      (builder.startCase label hasBody).renamed rename := by
  rw [startCase, startCase, renamed_frame]
  split
  · rfl
  · exact applyAll_renamed rename (builder.withGuard _ _) _

theorem exitCase_renamed (rename : Nat → Nat) (builder : Builder) (isBreak : Bool) :
    (builder.renamed rename).exitCase isBreak = (builder.exitCase isBreak).renamed rename := by
  rw [exitCase, exitCase, renamed_frame]
  split
  · rfl
  · split
    · exact endCase_renamed rename builder
    · rfl
    · rfl

theorem enterSwitch_renamed (rename : Nat → Nat) (builder : Builder)
    (other : node.kind ≠ binaryKind) :
    (builder.renamed rename).enterSwitch (node.condensed rename) =
      (builder.enterSwitch node).renamed rename := by
  rw [enterSwitch, enterSwitch, textInRole_condensed rename other]
  rfl

theorem leaveSwitch_renamed (rename : Nat → Nat) (builder : Builder) :
    (builder.renamed rename).leaveSwitch = builder.leaveSwitch.renamed rename := by
  rw [leaveSwitch, leaveSwitch, renamed_frame]
  split
  · rfl
  · rw [renamed_withFrame, applyAll_renamed]

theorem enterScoped_renamed (rename : Nat → Nat) (builder : Builder) (label : String)
    (isLoop : Bool) :
    (builder.renamed rename).enterScoped label isLoop =
      (builder.enterScoped label isLoop).renamed rename := by
  rw [enterScoped, enterScoped, openScope_renamed]
  rfl

theorem leaveScoped_renamed (rename : Nat → Nat) (builder : Builder) (isLoop : Bool) :
    (builder.renamed rename).leaveScoped isLoop =
      (builder.leaveScoped isLoop).renamed rename := by
  rw [leaveScoped, leaveScoped, renamed_frame, renamed_withFrame, closeScope_renamed]

theorem leaveBody_renamed (rename : Nat → Nat) (builder : Builder) (outer : Frame) :
    (builder.renamed rename).leaveBody outer = (builder.leaveBody outer).renamed rename := by
  rw [leaveBody, leaveBody, closeOpenScopes_renamed]
  rfl

theorem leaveMethod_renamed (rename : Nat → Nat) (builder outside : Builder) :
    (builder.renamed rename).leaveMethod (outside.renamed rename) =
      (builder.leaveMethod outside).renamed rename := by
  rw [leaveMethod, leaveMethod, closeOpenScopes_renamed]
  rfl

section Answered

variable (alike : Resolver.Renames rename resolver resolverToo)

include alike

theorem typeName_renamed (builder : Builder) (node : Node) :
    (builder.renamed rename).typeName resolverToo (node.condensed rename) =
      builder.typeName resolver node :=
  alike.typeName builder.model.moduleInfo.packageName node

theorem slotOf_renamed (builder : Builder) (node : Node) :
    (builder.renamed rename).slotOf resolverToo (node.condensed rename) =
      ((builder.slotOf resolver node).1, (builder.slotOf resolver node).2.renamed rename) := by
  rw [slotOf, slotOf, Node.condensed_kind]
  cases kind : node.kind with
  | variableDecl name =>
      have type : ((node.condensed rename).childAs .type).bind
          ((builder.renamed rename).typeName resolverToo) =
            (node.childAs .type).bind (builder.typeName resolver) := by
        rw [childAs_condensed rename (by simp [kind, binaryKind])]
        cases node.childAs .type with
        | none => rfl
        | some type => exact typeName_renamed alike builder type
      simp only [type, intern_renamed]
      split <;> rfl
  | _ => rfl

theorem slotsOf_renamed (builder : Builder) (nodes : List Node) :
    (builder.renamed rename).slotsOf resolverToo (nodes.map (condensed rename)) =
      ((builder.slotsOf resolver nodes).1, (builder.slotsOf resolver nodes).2.renamed rename) := by
  induction nodes generalizing builder with
  | nil => rfl
  | cons node rest ih =>
      rw [List.map_cons, slotsOf, slotsOf, slotOf_renamed alike]
      simp only [ih]

theorem relate_renamed (type : TypeId) (kind : RelationKind) (builder : Builder) (node : Node) :
    (builder.renamed rename).relate resolverToo type kind (node.condensed rename) =
      (builder.relate resolver type kind node).renamed rename := by
  rw [relate, relate, typeName_renamed alike]
  split
  · rw [intern_renamed]
    rfl
  · rfl

theorem foldl_relate_renamed (type : TypeId) (kind : RelationKind) (builder : Builder)
    (nodes : List Node) :
    (nodes.map (condensed rename)).foldl (relate resolverToo type kind) (builder.renamed rename) =
      (nodes.foldl (relate resolver type kind) builder).renamed rename := by
  induction nodes generalizing builder with
  | nil => rfl
  | cons node rest ih =>
      calc ((node :: rest).map (condensed rename)).foldl (relate resolverToo type kind)
            (builder.renamed rename)
        _ = (rest.map (condensed rename)).foldl (relate resolverToo type kind)
            ((builder.relate resolver type kind node).renamed rename) := by
          rw [List.map_cons, List.foldl_cons, relate_renamed alike]
        _ = (rest.foldl (relate resolver type kind)
            (builder.relate resolver type kind node)).renamed rename := ih _

theorem addMembers_renamed (type : TypeId) (builder : Builder) (nodes : List Node) :
    (builder.renamed rename).addMembers resolverToo type (nodes.map (condensed rename)) =
      (builder.addMembers resolver type nodes).renamed rename := by
  induction nodes generalizing builder with
  | nil => rfl
  | cons node rest ih =>
      unfold addMembers at ih ⊢
      rw [List.map_cons, List.foldl_cons, slotOf_renamed alike, List.foldl_cons]
      rcases builder.slotOf resolver node with ⟨_ | slot, slotted⟩
      · exact ih slotted
      · exact ih (slotted.withModel (slotted.model.addMember type slot))

theorem declareClass_renamed (other : node.kind ≠ binaryKind) (builder : Builder)
    (name : String) :
    (builder.renamed rename).declareClass resolverToo (node.condensed rename) name =
      ((builder.declareClass resolver node name).1,
        (builder.declareClass resolver node name).2.renamed rename) := by
  simp only [declareClass, renamed_model, Model.define_renamed, renamed_withModel,
    childrenAs_condensed rename other, foldl_relate_renamed alike, addMembers_renamed alike]

theorem declareMethod_renamed (keepsApart : Function.Injective rename)
    (other : node.kind ≠ binaryKind) (builder : Builder) (owner : TypeId) (name : String) :
    (builder.renamed rename).declareMethod resolverToo (node.condensed rename) owner name =
      ((builder.declareMethod resolver node owner name).1,
        (builder.declareMethod resolver node owner name).2.renamed rename) := by
  have added (slotted : Builder) (parameters : List Slot) :=
    Model.addMethod_renamed keepsApart slotted.model owner name parameters (.node node.id)
  simp only [Origin.renamed] at added
  simp only [declareMethod, childrenAs_condensed rename other, slotsOf_renamed alike,
    Node.condensed_id, renamed_model, added, renamed_withModel]

theorem construct_renamed (keepsApart : Function.Injective rename) (builder : Builder)
    (node : Node) :
    (builder.renamed rename).construct resolverToo (node.condensed rename) =
      (builder.construct resolver node).renamed rename := by
  rw [construct, construct, typeName_renamed alike]
  split
  · next name known =>
      simp only [intern_renamed, renamed_model, Model.constructor_renamed keepsApart,
        renamed_withModel, renamed_frame]
      split
      · rw [record_renamed]
      · rfl
  · rfl

theorem invoke_renamed (builder : Builder) (node : Node) (select : String) :
    (builder.renamed rename).invoke resolverToo (node.condensed rename) select =
      (builder.invoke resolver node select).renamed rename := by
  rw [invoke, invoke, typeName_renamed alike]
  split
  · rw [intern_renamed]
    exact record_renamed rename _ _
  · rfl

theorem useVariable_renamed (builder : Builder) (node : Node) (name : String) :
    (builder.renamed rename).useVariable resolverToo (node.condensed rename) name =
      (builder.useVariable resolver node name).renamed rename := by
  rw [useVariable, useVariable, typeName_renamed alike, alike.variableOwner,
    renamed_currentMethod]
  split
  · rfl
  · split
    · rfl
    · simp only [intern_renamed]
      split
      · rfl
      · exact record_renamed rename _ _

theorem enter_renamed (keepsApart : Function.Injective rename) (node : Node)
    (builder : Builder) :
    enter resolverToo (node.condensed rename) (builder.renamed rename) =
      (enter resolver node builder).renamed rename := by
  have moduleInfo : (builder.model.renamed rename).moduleInfo = builder.model.moduleInfo := rfl
  rw [enter, enter, Node.condensed_kind, renamed_model, moduleInfo, renamed_methodOwner,
    scopeLabel_condensed]
  cases kind : node.kind with
  | classDecl name flavor =>
      dsimp only
      split
      · rw [declareClass_renamed alike (by simp [kind, binaryKind])]
        rfl
      · rfl
  | methodDecl name =>
      dsimp only
      split
      · rw [declareMethod_renamed alike keepsApart (by simp [kind, binaryKind])]
        rfl
      · rfl
  | conditional | forLoop | whileLoop | doWhileLoop | enhancedFor =>
      exact enterScoped_renamed rename builder _ _
  | switch => exact enterSwitch_renamed rename builder (by simp [kind, binaryKind])
  | caseLabel label hasBody arrow => exact startCase_renamed rename builder _ _
  | creation => exact construct_renamed alike keepsApart builder node
  | invocation select => exact invoke_renamed alike builder node select
  | _ => rfl

omit alike in
theorem leave_renamed (rename : Nat → Nat) (node : Node) (builder visited : Builder) :
    leave (node.condensed rename) (builder.renamed rename) (visited.renamed rename) =
      (leave node builder visited).renamed rename := by
  have moduleInfo : (builder.model.renamed rename).moduleInfo = builder.model.moduleInfo := rfl
  rw [leave, leave, Node.condensed_kind, renamed_model, moduleInfo, renamed_methodOwner]
  cases node.kind with
  | classDecl name flavor =>
      dsimp only
      split
      · rfl
      · exact leaveBody_renamed rename
          { visited with anonymousDepth := visited.anonymousDepth - 1 } builder.frame
  | methodDecl name =>
      dsimp only
      split
      · exact leaveMethod_renamed rename visited builder
      · exact leaveBody_renamed rename visited _
  | conditional | forLoop | whileLoop | doWhileLoop | enhancedFor =>
      exact leaveScoped_renamed rename visited _
  | switch => exact leaveSwitch_renamed rename visited
  | caseLabel label hasBody arrow =>
      dsimp only
      split
      · exact endCase_renamed rename visited
      · rfl
  | returnExit => exact exitCase_renamed rename visited false
  | lambda => exact leaveBody_renamed rename visited _
  | _ => rfl

theorem visitLeaf_renamed (node : Node) (builder : Builder) :
    visitLeaf resolverToo (node.condensed rename) (builder.renamed rename) =
      (visitLeaf resolver node builder).renamed rename := by
  rw [visitLeaf, visitLeaf, Node.condensed_kind, Node.condensed_text]
  split
  · rfl
  · exact exitCase_renamed rename builder true
  · exact useVariable_renamed alike builder node _
  · rfl

omit alike in
/-- An operand is visited for its own operands. -/
theorem visitAll_gathered (resolver : Resolver) (kind : Kind) (nodes : List Node)
    (builder : Builder) :
    visitAll resolver (gathered kind nodes) builder = visitAll resolver nodes builder := by
  have operand (node : Node) (builder : Builder) :
      visitAll resolver node.spread builder = visitChild resolver node builder := by
    rw [spread]
    split
    · next operand =>
        obtain ⟨binary, noRole⟩ := operand
        have descended : node.kind.isDescended = true := by rw [binary]; rfl
        rw [visitChild, visit_eq_leave resolver _ descended]
        simp [enter, leave, enterRole, leaveRole, binary, noRole, binaryKind]
    · rw [visitAll_cons, visitAll_nil]
  rw [gathered]
  split
  · induction nodes generalizing builder with
    | nil => rfl
    | cons node rest ih => rw [List.flatMap_cons, visitAll_append, operand, ih, visitAll_cons]
  · rfl

omit alike in
theorem visitAll_renamed {nodes : List Node}
    (each : ∀ node ∈ nodes, ∀ builder,
      visit resolverToo (node.condensed rename) (builder.renamed rename) =
        (visit resolver node builder).renamed rename) (builder : Builder) :
    visitAll resolverToo (nodes.map (condensed rename)) (builder.renamed rename) =
      (visitAll resolver nodes builder).renamed rename := by
  induction nodes generalizing builder with
  | nil => rfl
  | cons node rest ih =>
      obtain ⟨own, later⟩ := List.forall_mem_cons.mp each
      have child : visitChild resolverToo (node.condensed rename) (builder.renamed rename) =
          (visitChild resolver node builder).renamed rename := by
        rw [visitChild, visitChild, enterRole, enterRole, leaveRole, leaveRole,
          Node.condensed_role]
        split
        · exact congrArg leaveArgument (own builder.enterArgument)
        · exact own builder
      calc visitAll resolverToo ((node :: rest).map (condensed rename)) (builder.renamed rename)
        _ = visitAll resolverToo (rest.map (condensed rename))
            (visitChild resolverToo (node.condensed rename) (builder.renamed rename)) := by
          rw [List.map_cons, visitAll_cons]
        _ = visitAll resolverToo (rest.map (condensed rename))
            ((visitChild resolver node builder).renamed rename) := by rw [child]
        _ = (visitAll resolver rest (visitChild resolver node builder)).renamed rename :=
          ih later _
        _ = (visitAll resolver (node :: rest) builder).renamed rename := by rw [visitAll_cons]

/-- A condensed node is visited as the node itself. -/
theorem visit_renamed (keepsApart : Function.Injective rename) (node : Node)
    (builder : Builder) :
    visit resolverToo (node.condensed rename) (builder.renamed rename) =
      (visit resolver node builder).renamed rename := by
  induction node using Node.inductionOnChildren generalizing builder with
  | step node ih =>
      have sameKind := node.condensed_kind rename
      cases descended : node.kind.isDescended with
      | true =>
          calc visit resolverToo (node.condensed rename) (builder.renamed rename)
            _ = leave (node.condensed rename) (builder.renamed rename)
                (visitAll resolverToo (node.children.map (condensed rename))
                  (enter resolverToo (node.condensed rename) (builder.renamed rename))) := by
              rw [visit_eq_leave resolverToo _ (sameKind ▸ descended), Node.condensed_children,
                visitAll_gathered]
            _ = leave (node.condensed rename) (builder.renamed rename)
                ((visitAll resolver node.children (enter resolver node builder)).renamed
                  rename) := by rw [enter_renamed alike keepsApart, visitAll_renamed ih]
            _ = (leave node builder (visitAll resolver node.children
                (enter resolver node builder))).renamed rename := leave_renamed rename node ..
            _ = (visit resolver node builder).renamed rename := by
              rw [visit_eq_leave resolver builder descended]
      | false =>
          rw [visit_eq_visitLeaf resolver builder descended,
            visit_eq_visitLeaf resolverToo _ (sameKind ▸ descended), visitLeaf_renamed alike]

end Answered

end Builder

/-- The model of a condensed unit is the one of the unit under other node ids. -/
theorem Model.ofUnit_condensed (keepsApart : Function.Injective rename)
    (alike : Resolver.Renames rename resolver resolverToo) (root : Node) (path : String) :
    Model.ofUnit resolverToo (root.condensed rename) path =
      (Model.ofUnit resolver root path).renamed rename := by
  have start : Builder.initial resolverToo path =
      (Builder.initial resolver path).renamed rename := by
    rw [Builder.initial, Builder.initial, alike.packageName, alike.lineCount]
    rfl
  rw [Builder.ofUnit_eq_visit, Builder.ofUnit_eq_visit, start,
    Builder.visit_renamed alike keepsApart]
  rfl

/-- The document of a unit does not show how its operators are grouped. -/
theorem renderModel_condensed (keepsApart : Function.Injective rename) {unit : Node}
    (other : unit.kind ≠ binaryKind) (lineCount : Nat) (context : List Node) (path : String) :
    Interchange.renderModel (.ofUnit
        (Resolution.ofUnit (unit.condensed rename) lineCount context).toResolver
        (unit.condensed rename) path) =
      Interchange.renderModel (.ofUnit
        (Resolution.ofUnit unit lineCount context).toResolver unit path) := by
  have alike := Resolution.toResolver_renames keepsApart other lineCount context
  rw [Model.ofUnit_condensed keepsApart alike, Interchange.renderModel_renamed]

end JavaStructure
