/-
# What does not depend on what is known about names

One tree is walked twice, with resolvers that may differ in every answer. What they know
decides which types are mentioned and which calls and uses are recorded, but not which
types and methods are declared, nor where scopes open and close. The states of the two
walks are related, each step that asks a resolver is shown to leave its own state related
to itself, and each other step does the same to related states.
-/

import JavaStructure.Proofs.Building.Attribution
import JavaStructure.Proofs.Building.Closure
import JavaStructure.Proofs.Model.Declarations
import Mathlib.Data.List.Nodup

namespace JavaStructure

open Syntax (Node Kind)

/-- Two models say the same of packages, imports, declared types and declared methods. -/
structure Model.Alike (first second : Model) : Prop where
  packageName : first.moduleInfo.packageName = second.moduleInfo.packageName
  imports : first.moduleInfo.imports = second.moduleInfo.imports
  defined : ∀ name, name ∈ first.definedNames ↔ name ∈ second.definedNames
  declarations : first.declarations = second.declarations

namespace Builder

variable {resolver resolverToo : Resolver} {node : Node} {place : Place}
variable {before middle after first second firstAfter secondAfter : Builder}

/-- Two states of the walk stand at the same place, and their models are alike. -/
structure Alike (first second : Builder) : Prop where
  model : first.model.Alike second.model
  distinct : first.model.declaredNodes.Nodup
  currentClass : first.currentClass.map first.model.nameOf =
    second.currentClass.map second.model.nameOf
  currentMethod : first.currentMethod.map first.model.nodeOf =
    second.currentMethod.map second.model.nodeOf
  anonymousDepth : first.anonymousDepth = second.anonymousDepth
  frame : first.frame = second.frame

namespace Alike

theorem refl (builder : Builder) (distinct : builder.model.declaredNodes.Nodup) :
    Alike builder builder :=
  ⟨⟨rfl, rfl, fun _ => .rfl, rfl⟩, distinct, rfl, rfl, rfl, rfl⟩

/-- States that are alike have declared methods at the same nodes. -/
theorem declaredNodes (alike : Alike first second) :
    first.model.declaredNodes = second.model.declaredNodes := by
  rw [← Model.declarations_map_node, alike.model.declarations, Model.declarations_map_node]

theorem symm (alike : Alike first second) : Alike second first where
  model := ⟨alike.model.packageName.symm, alike.model.imports.symm,
    fun name => (alike.model.defined name).symm, alike.model.declarations.symm⟩
  distinct := alike.declaredNodes ▸ alike.distinct
  currentClass := alike.currentClass.symm
  currentMethod := alike.currentMethod.symm
  anonymousDepth := alike.anonymousDepth.symm
  frame := alike.frame.symm

theorem trans (left : Alike before middle) (right : Alike middle after) : Alike before after where
  model := ⟨left.model.packageName.trans right.model.packageName,
    left.model.imports.trans right.model.imports,
    fun name => (left.model.defined name).trans (right.model.defined name),
    left.model.declarations.trans right.model.declarations⟩
  distinct := left.distinct
  currentClass := left.currentClass.trans right.currentClass
  currentMethod := left.currentMethod.trans right.currentMethod
  anonymousDepth := left.anonymousDepth.trans right.anonymousDepth
  frame := left.frame.trans right.frame

/-- States that do not show what happened to them stay alike. -/
theorem congr (alike : Alike first second) (left : Alike first firstAfter)
    (right : Alike second secondAfter) : Alike firstAfter secondAfter :=
  (left.symm.trans alike).trans right

theorem withFrame (alike : Alike first second) {frame frameToo : Frame} (same : frame = frameToo) :
    Alike (first.withFrame frame) (second.withFrame frameToo) :=
  ⟨alike.model, alike.distinct, alike.currentClass, alike.currentMethod, alike.anonymousDepth,
    same⟩

/-- The class that a method would belong to has the same name in both. -/
theorem methodOwner (alike : Alike first second) :
    first.methodOwner.map first.model.nameOf = second.methodOwner.map second.model.nameOf := by
  simp only [Builder.methodOwner, alike.anonymousDepth]
  split
  · exact alike.currentClass
  · rfl

end Alike

theorem IsSound.owned (sound : before.IsSound) :
    ∀ method ∈ before.model.methods, method.owner < before.model.types.length :=
  fun method inside => sound.closed.ofMethods method inside method.owner List.mem_cons_self

/-- Later models call the current class by the same name. -/
theorem IsSound.nameOf_currentClass (sound : before.IsSound) {model : Model}
    (grows : before.model.Grows model) :
    before.currentClass.map model.nameOf = before.currentClass.map before.model.nameOf := by
  cases current : before.currentClass with
  | none => rfl
  | some type =>
      have inside := (sound.currentClass type current).lt
      simp only [Option.map_some, grows.nameOf_eq inside]

/-- Later models declare the open method at the same node. -/
theorem IsSound.nodeOf_currentMethod (sound : before.IsSound) {model : Model}
    (grows : before.model.Grows model) :
    before.currentMethod.map model.nodeOf = before.currentMethod.map before.model.nodeOf := by
  cases current : before.currentMethod with
  | none => rfl
  | some id =>
      obtain ⟨method, found, -⟩ := sound.currentMethod id current
      have inside := (List.getElem?_eq_some_iff.mp found).1
      simp only [Option.map_some, grows.nodeOf_eq inside]

/-- References to types are not shown. -/
theorem Refers.alike (refers : Refers before after) (sound : before.IsSound)
    (distinct : before.model.declaredNodes.Nodup) : Alike before after where
  model :=
    { packageName := refers.model.packageName.symm
      imports := refers.imports.symm
      defined := fun name => by rw [refers.definedNames]
      declarations := (refers.model.declarations sound.owned).symm }
  distinct := distinct
  currentClass := by
    rw [refers.same]
    exact (sound.nameOf_currentClass refers.model.toGrows).symm
  currentMethod := by
    rw [refers.same]
    exact (sound.nodeOf_currentMethod refers.model.toGrows).symm
  anonymousDepth := by
    rw [refers.same]
    rfl
  frame := by
    rw [refers.same]
    rfl

theorem record_of_some {id : MethodId} (current : before.currentMethod = some id)
    (statement : Statement) :
    before.record statement = before.withModel (before.model.addStatement id statement) := by
  simp [record, current]

theorem record_of_none (closed : before.currentMethod = none) (statement : Statement) :
    before.record statement = before := by
  simp [record, closed]

/-- Calls and variable uses are not shown, either. -/
theorem record_alike_self (distinct : before.model.declaredNodes.Nodup) {statement : Statement}
    (other : statement.isScope = false) : Alike before (before.record statement) := by
  cases current : before.currentMethod with
  | none =>
      rw [record_of_none current]
      exact .refl before distinct
  | some id =>
      rw [record_of_some current]
      refine ⟨⟨rfl, rfl, fun _ => .rfl, ?_⟩, distinct, rfl, ?_, rfl, rfl⟩
      · exact (Model.declarations_addStatement_of_isScope_eq_false _ id other).symm
      · simp only [withModel, current, Option.map_some, Model.nodeOf_addStatement]

theorem Notes.alike (notes : Notes before after) (sound : before.IsSound)
    (distinct : before.model.declaredNodes.Nodup) : Alike before after := by
  cases notes with
  | silent refers => exact refers.alike sound distinct
  | call refers _ _ | variableUse refers _ _ _ =>
      have referred := refers.alike sound distinct
      exact referred.trans (record_alike_self referred.symm.distinct rfl)

/-- A scope opens or ends in both. -/
theorem record_alike (alike : Alike first second) {statement : Statement}
    (scope : statement.isScope = true) :
    Alike (first.record statement) (second.record statement) := by
  have currentMethod := alike.currentMethod
  cases current : first.currentMethod with
  | none =>
      rw [current] at currentMethod
      have closed := Option.map_eq_none_iff.mp currentMethod.symm
      rw [record_of_none current, record_of_none closed]
      exact alike
  | some id =>
      rw [current] at currentMethod
      obtain ⟨idToo, currentToo, sameNode⟩ := Option.map_eq_some_iff.mp currentMethod.symm
      have declarations : (first.model.addStatement id statement).declarations =
          (second.model.addStatement idToo statement).declarations := by
        cases declared : first.model.nodeOf id with
        | none =>
            rw [Model.declarations_addStatement_of_nodeOf declared,
              Model.declarations_addStatement_of_nodeOf (sameNode.trans declared)]
            exact alike.model.declarations
        | some node =>
            rw [Model.declarations_addStatement alike.distinct declared scope,
              Model.declarations_addStatement alike.symm.distinct (sameNode.trans declared) scope,
              alike.model.declarations]
      rw [record_of_some current, record_of_some currentToo]
      refine ⟨⟨alike.model.packageName, alike.model.imports, alike.model.defined, declarations⟩,
        ?_, alike.currentClass, ?_, alike.anonymousDepth, alike.frame⟩
      · rw [withModel, Model.declaredNodes_addStatement]
        exact alike.distinct
      · simp only [withModel, current, currentToo, Option.map_some, Model.nodeOf_addStatement,
          sameNode]

theorem openScope_alike (alike : Alike first second) (condition : String) :
    Alike (first.openScope condition) (second.openScope condition) := by
  have currentMethod := alike.currentMethod
  cases current : first.currentMethod with
  | none =>
      rw [current] at currentMethod
      have closed := Option.map_eq_none_iff.mp currentMethod.symm
      rw [openScope_of_none current, openScope_of_none closed]
      exact alike
  | some id =>
      rw [current] at currentMethod
      obtain ⟨idToo, currentToo, -⟩ := Option.map_eq_some_iff.mp currentMethod.symm
      rw [openScope_of_some current, openScope_of_some currentToo]
      exact record_alike (alike.withFrame (by rw [alike.frame])) rfl

theorem closeScope_alike (alike : Alike first second) :
    Alike first.closeScope second.closeScope := by
  rw [closeScope, closeScope, ← alike.frame]
  split
  · exact alike
  · exact record_alike (alike.withFrame rfl) rfl

theorem closeScopes_alike (count : Nat) (alike : Alike first second) :
    Alike (closeScopes count first) (closeScopes count second) := by
  induction count generalizing first second with
  | zero => exact alike
  | succ count ih => exact ih (closeScope_alike alike)

theorem closeOpenScopes_alike (alike : Alike first second) :
    Alike first.closeOpenScopes second.closeOpenScopes := by
  rw [closeOpenScopes, closeOpenScopes, ← alike.frame]
  exact closeScopes_alike _ alike

theorem applyAll_alike (alike : Alike first second) (actions : List ScopeAction) :
    Alike (first.applyAll actions) (second.applyAll actions) := by
  induction actions generalizing first second with
  | nil => exact alike
  | cons action rest ih =>
      cases action with
      | openScope condition => exact ih (openScope_alike alike condition)
      | closeScope => exact ih (closeScope_alike alike)

theorem withGuard_alike (alike : Alike first second) (guard : CaseGuard)
    (outer : List CaseGuard) : Alike (first.withGuard guard outer) (second.withGuard guard outer) :=
  alike.withFrame (by rw [alike.frame])

theorem endCase_alike (alike : Alike first second) : Alike first.endCase second.endCase := by
  rw [endCase, endCase, ← alike.frame]
  split
  · exact alike
  · exact applyAll_alike (withGuard_alike alike _ _) _

theorem startCase_alike (alike : Alike first second) (label : String) (hasBody : Bool) :
    Alike (first.startCase label hasBody) (second.startCase label hasBody) := by
  rw [startCase, startCase, ← alike.frame]
  split
  · exact alike
  · exact applyAll_alike (withGuard_alike alike _ _) _

theorem exitCase_alike (alike : Alike first second) (isBreak : Bool) :
    Alike (first.exitCase isBreak) (second.exitCase isBreak) := by
  rw [exitCase, exitCase, ← alike.frame]
  split
  · exact alike
  · split
    · exact endCase_alike alike
    · exact withGuard_alike alike _ _
    · exact alike

theorem leaveSwitch_alike (alike : Alike first second) :
    Alike first.leaveSwitch second.leaveSwitch := by
  rw [leaveSwitch, leaveSwitch, ← alike.frame]
  split
  · exact alike
  · exact applyAll_alike (alike.withFrame rfl) _

theorem enterScoped_alike (alike : Alike first second) (label : String) (isLoop : Bool) :
    Alike (first.enterScoped label isLoop) (second.enterScoped label isLoop) := by
  have opened := openScope_alike alike label
  exact opened.withFrame (by rw [opened.frame])

theorem leaveScoped_alike (alike : Alike first second) (isLoop : Bool) :
    Alike (first.leaveScoped isLoop) (second.leaveScoped isLoop) :=
  closeScope_alike (alike.withFrame (by rw [alike.frame]))

/-- Steps that keep where the walk stands keep states alike, if they do the same to the models
and to the frames. -/
theorem Alike.of_keeps (alike : Alike first second) (soundFirst : first.IsSound)
    (soundSecond : second.IsSound) (keepsFirst : Keeps first firstAfter)
    (keepsSecond : Keeps second secondAfter) (model : firstAfter.model.Alike secondAfter.model)
    (distinct : firstAfter.model.declaredNodes.Nodup)
    (frame : firstAfter.frame = secondAfter.frame) : Alike firstAfter secondAfter where
  model := model
  distinct := distinct
  currentClass := by
    rw [keepsFirst.currentClass, keepsSecond.currentClass,
      soundFirst.nameOf_currentClass keepsFirst.grows,
      soundSecond.nameOf_currentClass keepsSecond.grows]
    exact alike.currentClass
  currentMethod := by
    rw [keepsFirst.currentMethod, keepsSecond.currentMethod,
      soundFirst.nodeOf_currentMethod keepsFirst.grows,
      soundSecond.nodeOf_currentMethod keepsSecond.grows]
    exact alike.currentMethod
  anonymousDepth := by
    rw [keepsFirst.anonymousDepth, keepsSecond.anonymousDepth]
    exact alike.anonymousDepth
  frame := frame

theorem define_keeps (builder : Builder) (name : String) :
    Keeps builder (builder.withModel (builder.model.define name).2) :=
  .of_registers (Mentions.of_model (Model.define_mentions ..)).registers

theorem define_isSound (sound : before.IsSound) (name : String) :
    (before.withModel (before.model.define name).2).IsSound :=
  (define_keeps before name).isSound (Model.define_closes sound.closed name).1 sound

theorem define_alike (alike : Alike first second) (soundFirst : first.IsSound)
    (soundSecond : second.IsSound) (name : String) :
    Alike (first.withModel (first.model.define name).2)
      (second.withModel (second.model.define name).2) := by
  refine alike.of_keeps soundFirst soundSecond (define_keeps first name)
    (define_keeps second name) ⟨?_, ?_, fun other => ?_, ?_⟩ ?_ alike.frame
  · simp only [withModel, Model.moduleInfo_define]
    exact alike.model.packageName
  · simp only [withModel, Model.moduleInfo_define]
    exact alike.model.imports
  · exact (Model.mem_definedNames_define _ name other).trans
      ((or_congr_left (alike.model.defined other)).trans
        (Model.mem_definedNames_define _ name other).symm)
  · simp only [withModel]
    rw [(Model.define_mentions first.model name).declarations soundFirst.owned,
      (Model.define_mentions second.model name).declarations soundSecond.owned]
    exact alike.model.declarations
  · simp only [withModel, (Model.define_mentions first.model name).declaredNodes]
    exact alike.distinct

theorem declareClass_alike (alike : Alike first second) (soundFirst : first.IsSound)
    (soundSecond : second.IsSound) (node : Node) (name : String) :
    Alike (first.declareClass resolver node name).2
      (second.declareClass resolverToo node name).2 := by
  have defined := define_alike alike soundFirst soundSecond name
  exact defined.congr
    ((declareClass_refers resolver first node name).alike (define_isSound soundFirst name)
      defined.distinct)
    ((declareClass_refers resolverToo second node name).alike (define_isSound soundSecond name)
      defined.symm.distinct)

/-- The class that was declared has its name. -/
theorem nameOf_declareClass (resolver : Resolver) (builder : Builder) (node : Node)
    (name : String) :
    (builder.declareClass resolver node name).2.model.nameOf
      (builder.declareClass resolver node name).1 = some name :=
  (declareClass_refers resolver builder node name).model.toGrows.nameOf
    (Model.nameOf_define builder.model name)

theorem enterClass_alike (alike : Alike first second) {type typeToo : TypeId}
    (named : first.model.nameOf type = second.model.nameOf typeToo) :
    Alike (first.enterClass type) (second.enterClass typeToo) :=
  ⟨alike.model, alike.distinct, congrArg some named, rfl, rfl, rfl⟩

theorem slotsOf_isSound (resolver : Resolver) (sound : before.IsSound) (nodes : List Node) :
    (before.slotsOf resolver nodes).2.IsSound :=
  (Keeps.of_registers (slotsOf_mentions ..).registers).isSound
    (slotsOf_closes resolver sound.closed nodes).1 sound

/-- A method is declared at the same node in both, whatever its parameters are. -/
theorem addMethod_alike (alike : Alike first second) (soundFirst : first.IsSound)
    (soundSecond : second.IsSound) {owner ownerToo : TypeId}
    (inside : owner < first.model.types.length) (insideToo : ownerToo < second.model.types.length)
    (named : first.model.nameOf owner = second.model.nameOf ownerToo)
    (fresh : node.id ∉ first.model.declaredNodes) (name : String)
    (parameters parametersToo : List Slot) :
    Alike (first.withModel (first.model.addMethod owner name parameters (.node node.id)).2)
      (second.withModel
        (second.model.addMethod ownerToo name parametersToo (.node node.id)).2) := by
  have keeps (builder : Builder) (owner : TypeId) (parameters : List Slot) : Keeps builder
      (builder.withModel (builder.model.addMethod owner name parameters (.node node.id)).2) :=
    .of_registers ⟨rfl, Model.addMethod_registers ..⟩
  have added := Model.declarations_addMethod soundFirst.owned inside fresh name parameters
  have addedToo := Model.declarations_addMethod soundSecond.owned insideToo
    (alike.declaredNodes ▸ fresh) name parametersToo
  refine alike.of_keeps soundFirst soundSecond (keeps ..) (keeps ..)
    ⟨?_, ?_, fun other => ?_, ?_⟩ ?_ alike.frame
  · simp only [withModel, Model.moduleInfo_addMethod]
    exact alike.model.packageName
  · simp only [withModel, Model.moduleInfo_addMethod]
    exact alike.model.imports
  · simp only [withModel, Model.definedNames_addMethod]
    exact alike.model.defined other
  · calc (first.model.addMethod owner name parameters (.node node.id)).2.declarations
      _ = first.model.declarations ++ [⟨first.model.nameOf owner, name, node.id, []⟩] := added
      _ = second.model.declarations ++ [⟨second.model.nameOf ownerToo, name, node.id, []⟩] := by
        rw [alike.model.declarations, named]
      _ = (second.model.addMethod ownerToo name parametersToo (.node node.id)).2.declarations :=
        addedToo.symm
  · rw [withModel, ← Model.declarations_map_node, added, List.map_append,
      Model.declarations_map_node, List.map_singleton, ← List.concat_eq_append]
    exact alike.distinct.concat fresh

theorem declareMethod_alike (alike : Alike first second) (soundFirst : first.IsSound)
    (soundSecond : second.IsSound) {owner ownerToo : TypeId}
    (inside : owner < first.model.types.length) (insideToo : ownerToo < second.model.types.length)
    (named : first.model.nameOf owner = second.model.nameOf ownerToo)
    (fresh : node.id ∉ first.model.declaredNodes) (name : String) :
    Alike (first.declareMethod resolver node owner name).2
      (second.declareMethod resolverToo node ownerToo name).2 := by
  have refers := slotsOf_refers resolver first (node.childrenAs .parameter)
  have refersToo := slotsOf_refers resolverToo second (node.childrenAs .parameter)
  have slots := alike.congr (refers.alike soundFirst alike.distinct)
    (refersToo.alike soundSecond alike.symm.distinct)
  have grows := refers.model.toGrows
  have growsToo := refersToo.model.toGrows
  refine addMethod_alike slots (slotsOf_isSound resolver soundFirst _)
    (slotsOf_isSound resolverToo soundSecond _) (Nat.lt_of_lt_of_le inside grows.types_length_le)
    (Nat.lt_of_lt_of_le insideToo growsToo.types_length_le) ?_ ?_ name _ _
  · rw [grows.nameOf_eq inside, growsToo.nameOf_eq insideToo, named]
  · rw [refers.model.declaredNodes]
    exact fresh

theorem enterMethod_alike (alike : Alike first second) {method methodToo : MethodId}
    (declared : first.model.nodeOf method = second.model.nodeOf methodToo) :
    Alike (first.enterMethod method) (second.enterMethod methodToo) :=
  ⟨alike.model, alike.distinct, alike.currentClass, congrArg some declared, alike.anonymousDepth,
    rfl⟩

/-- Below a node the states are alike again. -/
theorem enter_alike (alike : Alike first second) (soundFirst : first.IsSound)
    (soundSecond : second.IsSound) (fresh : node.id ∉ first.model.declaredNodes) :
    Alike (enter resolver node first) (enter resolverToo node second) := by
  unfold enter
  cases kind : node.kind with
  | classDecl name flavor =>
      dsimp only
      rw [← alike.model.packageName]
      cases declaredClassName first.model.moduleInfo.packageName name with
      | none =>
          refine ⟨alike.model, alike.distinct, alike.currentClass, alike.currentMethod, ?_, rfl⟩
          simp only [alike.anonymousDepth]
      | some qualified =>
          refine enterClass_alike
            (declareClass_alike alike soundFirst soundSecond node qualified) ?_
          rw [nameOf_declareClass, nameOf_declareClass]
  | methodDecl name =>
      have owners := alike.methodOwner
      dsimp only
      cases owned : first.methodOwner with
      | none =>
          rw [owned] at owners
          rw [Option.map_eq_none_iff.mp owners.symm]
          exact alike.withFrame rfl
      | some owner =>
          rw [owned] at owners
          obtain ⟨ownerToo, ownedToo, named⟩ := Option.map_eq_some_iff.mp owners.symm
          rw [ownedToo]
          have declared := (declareMethod_receives resolver first node owner name fresh).2
          have declaredToo := (declareMethod_receives resolverToo second node ownerToo name
            (alike.declaredNodes ▸ fresh)).2
          refine enterMethod_alike (declareMethod_alike alike soundFirst soundSecond
            (soundFirst.isDeclared_methodOwner owned).lt
            (soundSecond.isDeclared_methodOwner ownedToo).lt named.symm fresh name) ?_
          rw [declared, declaredToo]
  | conditional | forLoop | whileLoop | doWhileLoop | enhancedFor =>
      exact enterScoped_alike alike _ _
  | switch => exact alike.withFrame (by rw [alike.frame])
  | caseLabel label hasBody arrow => exact startCase_alike alike _ _
  | creation =>
      exact alike.congr ((construct_notes resolver first node).alike soundFirst alike.distinct)
        ((construct_notes resolverToo second node).alike soundSecond alike.symm.distinct)
  | invocation select =>
      exact alike.congr ((invoke_notes resolver first node select).alike soundFirst alike.distinct)
        ((invoke_notes resolverToo second node select).alike soundSecond alike.symm.distinct)
  | lambda => exact alike.withFrame rfl
  | _ => exact alike

/-- After a body the states are alike again, if they are so within it. -/
theorem leaveBody_alike (visited : Alike firstAfter secondAfter) (alike : Alike first second) :
    Alike (firstAfter.leaveBody first.frame) (secondAfter.leaveBody second.frame) :=
  (closeOpenScopes_alike visited).withFrame alike.frame

theorem leave_alike (alike : Alike first second) (soundFirst : first.IsSound)
    (soundSecond : second.IsSound) (descended : node.kind.isDescended = true)
    (childrenFirst : Keeps (enter resolver node first) firstAfter)
    (childrenSecond : Keeps (enter resolverToo node second) secondAfter)
    (visited : Alike firstAfter secondAfter) :
    Alike (leave node first firstAfter) (leave node second secondAfter) := by
  have keepsFirst := opening_keeps (opening_of_isDescended resolver first descended) childrenFirst
  have keepsSecond :=
    opening_keeps (opening_of_isDescended resolverToo second descended) childrenSecond
  have back := alike.of_keeps soundFirst soundSecond keepsFirst keepsSecond
  have closed := closeOpenScopes_alike visited
  unfold leave at *
  cases kind : node.kind with
  | classDecl name flavor =>
      simp only [kind] at back ⊢
      rw [← alike.model.packageName] at back ⊢
      cases declared : declaredClassName first.model.moduleInfo.packageName name with
      | none =>
          refine leaveBody_alike ⟨visited.model, visited.distinct, visited.currentClass,
            visited.currentMethod, ?_, visited.frame⟩ alike
          rw [visited.anonymousDepth]
      | some qualified =>
          rw [declared] at back
          exact back visited.model visited.distinct alike.frame
  | methodDecl name =>
      have owners := alike.methodOwner
      simp only [kind] at back ⊢
      cases owned : first.methodOwner with
      | none =>
          rw [owned] at owners
          rw [Option.map_eq_none_iff.mp owners.symm]
          exact leaveBody_alike visited alike
      | some owner =>
          rw [owned] at owners
          obtain ⟨ownerToo, ownedToo, -⟩ := Option.map_eq_some_iff.mp owners.symm
          rw [owned, ownedToo] at back
          rw [ownedToo]
          exact back closed.model closed.distinct alike.frame
  | conditional | forLoop | whileLoop | doWhileLoop | enhancedFor =>
      exact leaveScoped_alike visited _
  | switch => exact leaveSwitch_alike visited
  | caseLabel label hasBody arrow =>
      dsimp only
      split
      · exact endCase_alike visited
      · exact visited
  | returnExit => exact exitCase_alike visited false
  | lambda => exact leaveBody_alike visited alike
  | _ => exact visited

/-- A node that is visited as a whole does the same to both. -/
theorem visitLeaf_alike (alike : Alike first second) (soundFirst : first.IsSound)
    (soundSecond : second.IsSound) :
    Alike (visitLeaf resolver node first) (visitLeaf resolverToo node second) := by
  unfold visitLeaf
  cases kind : node.kind with
  | importDecl =>
      refine ⟨⟨alike.model.packageName, ?_, alike.model.defined, alike.model.declarations⟩,
        alike.distinct, alike.currentClass, alike.currentMethod, alike.anonymousDepth, alike.frame⟩
      exact congrArg (· ++ _) alike.model.imports
  | breakExit => exact exitCase_alike alike true
  | identifier name typePosition =>
      exact alike.congr
        ((useVariable_notes resolver first node name).alike soundFirst alike.distinct)
        ((useVariable_notes resolverToo second node name).alike soundSecond alike.symm.distinct)
  | _ => exact alike

theorem enterRole_alike (alike : Alike first second) (child : Node) :
    Alike (enterRole child first) (enterRole child second) := by
  unfold enterRole
  split
  · exact alike.withFrame (by rw [alike.frame])
  · exact alike

theorem leaveRole_alike (alike : Alike first second) (child : Node) :
    Alike (leaveRole child first) (leaveRole child second) := by
  unfold leaveRole
  split
  · exact alike.withFrame (by rw [alike.frame])
  · exact alike

theorem enterRole_isSound (sound : before.IsSound) (child : Node) :
    (enterRole child before).IsSound := by
  unfold enterRole
  split
  · exact sound.withFrame _
  · exact sound

theorem visitChild_isSound (resolver : Resolver) (sound : before.IsSound) (child : Node) :
    (visitChild resolver child before).IsSound :=
  (visitChild_keeps (visit_keeps resolver child) before).isSound
    (visitChild_closes (visit_closes resolver child) sound) sound

/-- The visits of children in both walks, one after the other. -/
theorem visitAll_alike {children : List Node} (alike : Alike first second)
    (soundFirst : first.IsSound) (soundSecond : second.IsSound) (here : At resolver place first)
    (fresh : (first.model.declaredNodes ++
      (Node.preorder.preorderAll children).map (·.id)).Nodup)
    (each : ∀ child ∈ children, ∀ {place : Place} {first second : Builder}, Alike first second →
      first.IsSound → second.IsSound → At resolver place first →
      (first.model.declaredNodes ++ child.preorder.map (·.id)).Nodup →
      Alike (visit resolver child first) (visit resolverToo child second)) :
    Alike (visitAll resolver children first) (visitAll resolverToo children second) := by
  induction children generalizing first second with
  | nil => simpa using alike
  | cons child rest ih =>
      rw [Node.preorder.preorderAll, List.map_append] at fresh
      rw [visitAll_cons, visitAll_cons]
      have freshChild :=
        fresh.sublist ((List.Sublist.refl _).append (List.sublist_append_left _ _))
      rw [← enterRole_model child] at freshChild
      have visited := each child List.mem_cons_self (enterRole_alike alike child)
        (enterRole_isSound soundFirst child) (enterRole_isSound soundSecond child)
        (enterRole_at here child) freshChild
      have received := visit_receives resolver child (enterRole_at here child) freshChild
      rw [enterRole_model, ← visitChild_model] at received
      have kept := visitChild_keeps (visit_keeps resolver child) first
      exact ih (leaveRole_alike visited child) (visitChild_isSound resolver soundFirst child)
        (visitChild_isSound resolverToo soundSecond child) (kept.at here)
        (received.nodup fresh (gather_declared_sublist _ child _))
        fun later member => each later (List.mem_cons_of_mem _ member)

/-- The visit of a tree whose nodes are new leaves states alike. -/
theorem visit_alike (resolver resolverToo : Resolver) (node : Node)
    (alike : Alike first second) (soundFirst : first.IsSound) (soundSecond : second.IsSound)
    (here : At resolver place first)
    (fresh : (first.model.declaredNodes ++ node.preorder.map (·.id)).Nodup) :
    Alike (visit resolver node first) (visit resolverToo node second) := by
  induction node using Node.inductionOnChildren generalizing place first second with
  | step node ih =>
      cases descended : node.kind.isDescended with
      | false =>
          rw [visit_eq_visitLeaf resolver first descended,
            visit_eq_visitLeaf resolverToo second descended]
          exact visitLeaf_alike alike soundFirst soundSecond
      | true =>
          rw [Node.preorder_eq, List.map_cons, ← List.singleton_append] at fresh
          have new : node.id ∉ first.model.declaredNodes := by
            intro member
            exact (List.nodup_append.mp fresh).2.2 _ member _ (by simp) rfl
          have opening := opening_of_isDescended resolver first descended
          have openingToo := opening_of_isDescended resolverToo second descended
          obtain ⟨entered, below⟩ := enter_receives opening here alike.distinct new
          have children := visitAll_alike (enter_alike alike soundFirst soundSecond new)
            (opening_closes opening soundFirst).2 (opening_closes openingToo soundSecond).2 below
            (entered.nodup fresh (declared_sublist place node))
            fun child member {_ _ _} => ih child member
          rw [visit_eq_leave resolver first descended, visit_eq_leave resolverToo second descended]
          exact leave_alike alike soundFirst soundSecond descended
            (visitAll_keeps resolver node.children _) (visitAll_keeps resolverToo node.children _)
            children

end Builder

/-- Two models of one tree with distinct node ids, built with resolvers that agree on the
package, are alike. -/
theorem Model.ofUnit_modelsAlike (first second : Resolver) (root : Node) (path : String)
    (packageName : first.packageName = second.packageName)
    (distinct : (root.preorder.map (·.id)).Nodup) :
    (Model.ofUnit first root path).Alike (Model.ofUnit second root path) := by
  have start : Builder.Alike (Builder.initial first path) (Builder.initial second path) :=
    ⟨⟨packageName, rfl, fun _ => .rfl, rfl⟩, List.nodup_nil, rfl, rfl, rfl, rfl⟩
  exact (Builder.visit_alike first second root start (Builder.initial_isSound first path)
    (Builder.initial_isSound second path) (Builder.initial_at first path) distinct).model

end JavaStructure
