/-
# Where names come from

Types are named by what is known of the nodes of a tree, methods and variables by their
declarations, and a constructor by itself. Whatever names may be given to these, the model has no
others: no step of the walk puts a name together, and none takes one from the text of a statement.
-/

import JavaStructure.Proofs.Building.Outline
import JavaStructure.Proofs.Model.Closure
import JavaStructure.Proofs.Syntax.Preorder

namespace JavaStructure

open Syntax (Node Kind Role)

/-- Which names types, methods and variables of a unit may have. -/
structure Naming where
  path : String
  packageName : String
  type : String → Prop
  method : String → Prop
  slot : String → Prop

/-- The names that a tree gives, with what a resolver knows of its nodes, may be given. -/
structure Naming.Allows (naming : Naming) (resolver : Resolver) (root : Node) : Prop where
  types : ∀ node ∈ root.preorder, ∀ name,
    resolver.typeName naming.packageName node = some name → naming.type name
  owners : ∀ node ∈ root.preorder, ∀ name,
    resolver.variableOwner node = some name → naming.type name
  methods : ∀ node ∈ root.preorder, ∀ name, node.kind = .methodDecl name → naming.method name
  slots : ∀ node ∈ root.preorder, ∀ name, node.kind = .variableDecl name → naming.slot name
  constructor : naming.method Syntax.constructorName

variable {naming : Naming} {resolver : Resolver} {node root : Node}

theorem Naming.Allows.of_child (allows : naming.Allows resolver node) {child : Node}
    (member : child ∈ node.children) : naming.Allows resolver child where
  types inner inside := allows.types inner (Node.mem_preorder_of_mem_children member inside)
  owners inner inside := allows.owners inner (Node.mem_preorder_of_mem_children member inside)
  methods inner inside := allows.methods inner (Node.mem_preorder_of_mem_children member inside)
  slots inner inside := allows.slots inner (Node.mem_preorder_of_mem_children member inside)
  constructor := allows.constructor

namespace Model

variable {model : Model} {id : TypeId} {name : String}

/-- Everything in a model has a name that it may have. -/
structure Follows (naming : Naming) (model : Model) : Prop where
  path : model.moduleInfo.path = naming.path
  packageName : model.moduleInfo.packageName = naming.packageName
  types : ∀ entry ∈ model.types, naming.type entry.name
  members : ∀ entry ∈ model.types, ∀ slot ∈ entry.members, naming.slot slot.name
  methods : ∀ method ∈ model.methods, naming.method method.name
  parameters : ∀ method ∈ model.methods, ∀ slot ∈ method.parameters, naming.slot slot.name

namespace Follows

theorem intern (follows : model.Follows naming) (named : naming.type name) :
    (model.intern name).2.Follows naming := by
  rw [Model.intern]
  split
  · exact follows
  · refine ⟨follows.path, follows.packageName, ?_, ?_, follows.methods, follows.parameters⟩
    · exact List.forall_mem_append.mpr ⟨follows.types, List.forall_mem_singleton.mpr named⟩
    · refine List.forall_mem_append.mpr ⟨follows.members, List.forall_mem_singleton.mpr ?_⟩
      rintro slot ⟨⟩

/-- The entry of a type may be changed if its names stay ones that it may have. -/
theorem modifyType (follows : model.Follows naming) {change : TypeEntry → TypeEntry}
    (names : ∀ entry ∈ model.types, (change entry).name = entry.name)
    (members : ∀ entry ∈ model.types, ∀ slot ∈ (change entry).members, naming.slot slot.name) :
    (model.modifyType id change).Follows naming where
  path := follows.path
  packageName := follows.packageName
  types entry inside := by
    rcases mem_modifyType inside with kept | ⟨before, present, rfl⟩
    · exact follows.types entry kept
    · exact names before present ▸ follows.types before present
  members entry inside := by
    rcases mem_modifyType inside with kept | ⟨before, present, rfl⟩
    · exact follows.members entry kept
    · exact members before present
  methods := follows.methods
  parameters := follows.parameters

theorem define (follows : model.Follows naming) (named : naming.type name) :
    (model.define name).2.Follows naming :=
  (follows.intern named).modifyType (fun _ _ => rfl) (follows.intern named).members

theorem addRelation (follows : model.Follows naming) (relation : Relation) :
    (model.addRelation id relation).Follows naming := by
  refine follows.modifyType (fun entry _ => ?_) fun entry inside slot listed => ?_
  · split <;> rfl
  · refine follows.members entry inside slot ?_
    split at listed <;> exact listed

theorem addMember (follows : model.Follows naming) {slot : Slot} (named : naming.slot slot.name) :
    (model.addMember id slot).Follows naming := by
  refine follows.modifyType (fun entry _ => ?_) fun entry inside other listed => ?_
  · split <;> rfl
  · split at listed
    · exact follows.members entry inside other listed
    · rcases List.mem_append.mp listed with kept | added
      · exact follows.members entry inside other kept
      · exact List.mem_singleton.mp added ▸ named

theorem addMethod (follows : model.Follows naming) (named : naming.method name)
    {parameters : List Slot} (slots : ∀ slot ∈ parameters, naming.slot slot.name)
    (origin : Origin) : (model.addMethod id name parameters origin).2.Follows naming := by
  rw [Model.addMethod]
  split
  · exact follows
  · have registered : Follows naming { model with
        methods := model.methods ++ [{ owner := id, name, origin, parameters }] } :=
      ⟨follows.path, follows.packageName, follows.types, follows.members,
        List.forall_mem_append.mpr ⟨follows.methods, List.forall_mem_singleton.mpr named⟩,
        List.forall_mem_append.mpr ⟨follows.parameters, List.forall_mem_singleton.mpr slots⟩⟩
    exact registered.modifyType (fun _ _ => rfl) registered.members

theorem constructor (follows : model.Follows naming)
    (named : naming.method Syntax.constructorName) : (model.constructor id).2.Follows naming := by
  rw [Model.constructor]
  split
  · exact follows
  · exact follows.addMethod named (by rintro slot ⟨⟩) .synthesized

theorem addStatement (id : MethodId) (statement : Statement) (follows : model.Follows naming) :
    (model.addStatement id statement).Follows naming where
  path := follows.path
  packageName := follows.packageName
  types := follows.types
  members := follows.members
  methods method inside := by
    rcases mem_addStatement inside with kept | ⟨before, present, rfl⟩
    · exact follows.methods method kept
    · exact follows.methods before (List.mem_of_getElem? present)
  parameters method inside := by
    rcases mem_addStatement inside with kept | ⟨before, present, rfl⟩
    · exact follows.parameters method kept
    · exact follows.parameters before (List.mem_of_getElem? present)

end Follows

end Model

namespace Builder

variable {builder visited inside : Builder} {leaving : Builder → Builder}

/-! What holds of a model whatever statements its methods have is not touched by the scopes that
open and close. -/

section Statements

variable {Holds : Model → Prop}
variable (recorded : ∀ {model : Model} id statement,
  Holds model → Holds (model.addStatement id statement))
include recorded

theorem record_model (statement : Statement) (holds : Holds builder.model) :
    Holds (builder.record statement).model := by
  rw [record]
  split
  · exact recorded _ _ holds
  · exact holds

theorem openScope_model (condition : String) (holds : Holds builder.model) :
    Holds (builder.openScope condition).model := by
  have framed (frame : Frame) : Holds (builder.withFrame frame).model := holds
  rw [openScope]
  split
  · exact record_model recorded _ (framed _)
  · exact holds

theorem closeScope_model (holds : Holds builder.model) : Holds builder.closeScope.model := by
  have framed (frame : Frame) : Holds (builder.withFrame frame).model := holds
  rw [closeScope]
  split
  · exact holds
  · exact record_model recorded _ (framed _)

theorem closeScopes_model (count : Nat) (holds : Holds builder.model) :
    Holds (closeScopes count builder).model := by
  induction count generalizing builder with
  | zero => exact holds
  | succ count ih => exact ih (closeScope_model recorded holds)

theorem applyAll_model (actions : List ScopeAction) (holds : Holds builder.model) :
    Holds (builder.applyAll actions).model := by
  induction actions generalizing builder with
  | nil => exact holds
  | cons action rest ih =>
      cases action with
      | openScope condition => exact ih (openScope_model recorded condition holds)
      | closeScope => exact ih (closeScope_model recorded holds)

theorem withGuard_applyAll_model (guard : CaseGuard) (outer : List CaseGuard)
    (actions : List ScopeAction) (holds : Holds builder.model) :
    Holds ((builder.withGuard guard outer).applyAll actions).model :=
  applyAll_model recorded actions holds

theorem endCase_model (holds : Holds builder.model) : Holds builder.endCase.model := by
  rw [endCase]
  split
  · exact holds
  · exact withGuard_applyAll_model recorded _ _ _ holds

theorem startCase_model (label : String) (hasBody : Bool) (holds : Holds builder.model) :
    Holds (builder.startCase label hasBody).model := by
  rw [startCase]
  split
  · exact holds
  · exact withGuard_applyAll_model recorded _ _ _ holds

theorem exitCase_model (isBreak : Bool) (holds : Holds builder.model) :
    Holds (builder.exitCase isBreak).model := by
  rw [exitCase]
  split
  · exact holds
  · split
    · exact endCase_model recorded holds
    · exact holds
    · exact holds

theorem leaving_model (opening : Opening resolver node builder inside leaving)
    (holds : Holds visited.model) : Holds (leaving visited).model := by
  have framed (frame : Frame) : Holds (visited.withFrame frame).model := holds
  have lowered : Holds
      { visited with anonymousDepth := visited.anonymousDepth - 1 : Builder }.model := holds
  cases opening with
  | namedClass _ _ _ | creation _ | invocation _ | plain _ => exact holds
  | anonymousClass _ => exact closeScopes_model recorded _ lowered
  | method _ _ _ | ownerlessMethod _ _ | lambda _ => exact closeScopes_model recorded _ holds
  | nesting _ _ => exact closeScope_model recorded (framed _)
  | switch _ =>
      rw [leaveSwitch]
      split
      · exact holds
      · exact applyAll_model recorded _ (framed _)
  | caseLabel _ =>
      split
      · exact endCase_model recorded holds
      · exact holds
  | returnExit _ => exact exitCase_model recorded false holds

end Statements

/-- What a node of the tree is known by may be the name of a type. -/
theorem type_of_typeName (allows : naming.Allows resolver node)
    (follows : builder.model.Follows naming) {name : String}
    (known : builder.typeName resolver node = some name) : naming.type name := by
  rw [typeName, follows.packageName] at known
  exact allows.types node node.mem_preorder_self name known

theorem slotOf_follows (allows : naming.Allows resolver node)
    (follows : builder.model.Follows naming) :
    (builder.slotOf resolver node).2.model.Follows naming ∧
      ∀ slot ∈ (builder.slotOf resolver node).1, naming.slot slot.name := by
  rw [slotOf]
  split
  · next name kind =>
      split
      · next typeName known =>
          obtain ⟨child, found, known⟩ := Option.bind_eq_some_iff.mp known
          have inner := allows.of_child (List.mem_of_find?_eq_some found)
          refine ⟨follows.intern (type_of_typeName inner follows known), ?_⟩
          rintro slot ⟨⟩
          exact allows.slots node node.mem_preorder_self name kind
      · exact ⟨follows, by rintro slot ⟨⟩⟩
  · exact ⟨follows, by rintro slot ⟨⟩⟩

theorem slotsOf_follows {nodes : List Node} (allows : ∀ node ∈ nodes, naming.Allows resolver node)
    (follows : builder.model.Follows naming) :
    (builder.slotsOf resolver nodes).2.model.Follows naming ∧
      ∀ slot ∈ (builder.slotsOf resolver nodes).1, naming.slot slot.name := by
  induction nodes generalizing builder with
  | nil => exact ⟨follows, by rintro slot ⟨⟩⟩
  | cons node rest ih =>
      obtain ⟨first, allows⟩ := List.forall_mem_cons.mp allows
      obtain ⟨followed, named⟩ := slotOf_follows first follows
      obtain ⟨followedToo, namedToo⟩ := ih allows followed
      refine ⟨followedToo, List.forall_mem_append.mpr ⟨fun slot member => ?_, namedToo⟩⟩
      exact named slot (Option.mem_toList.mp member)

theorem relate_follows (allows : naming.Allows resolver node)
    (follows : builder.model.Follows naming) (type : TypeId) (kind : RelationKind) :
    (builder.relate resolver type kind node).model.Follows naming := by
  rw [relate]
  split
  · next name known =>
      exact (follows.intern (type_of_typeName allows follows known)).addRelation _
  · exact follows

/-- Steps at nodes of the tree give the names that they may, in any number. -/
theorem foldl_follows {step : Builder → Node → Builder}
    (each : ∀ {builder : Builder} {node : Node}, naming.Allows resolver node →
      builder.model.Follows naming → (step builder node).model.Follows naming)
    {nodes : List Node} (allows : ∀ node ∈ nodes, naming.Allows resolver node)
    (follows : builder.model.Follows naming) : (nodes.foldl step builder).model.Follows naming := by
  induction nodes generalizing builder with
  | nil => exact follows
  | cons node rest ih =>
      obtain ⟨first, allows⟩ := List.forall_mem_cons.mp allows
      exact ih allows (each first follows)

theorem addMembers_follows (type : TypeId) {nodes : List Node}
    (allows : ∀ node ∈ nodes, naming.Allows resolver node)
    (follows : builder.model.Follows naming) :
    (builder.addMembers resolver type nodes).model.Follows naming := by
  refine foldl_follows (fun {builder node} allows follows => ?_) allows follows
  obtain ⟨followed, named⟩ := slotOf_follows allows follows
  split
  case h_1 slot found taken =>
      rw [taken] at followed named
      exact followed.addMember (named slot rfl)
  case h_2 found taken =>
      rw [taken] at followed
      exact followed

theorem allows_childrenAs (allows : naming.Allows resolver node) (role : Role) :
    ∀ child ∈ node.childrenAs role, naming.Allows resolver child :=
  fun _ member => allows.of_child (List.mem_of_mem_filter member)

theorem declareClass_follows (allows : naming.Allows resolver node)
    (follows : builder.model.Follows naming) {qualified : String}
    (named : naming.type qualified) :
    (builder.declareClass resolver node qualified).2.model.Follows naming := by
  have defined : (builder.withModel (builder.model.define qualified).2).model.Follows naming :=
    follows.define named
  have extended := foldl_follows (fun allows follows => relate_follows allows follows
    (builder.model.define qualified).1 .extension) (allows_childrenAs allows .superclass) defined
  have implemented := foldl_follows (fun allows follows => relate_follows allows follows
    (builder.model.define qualified).1 .implementation)
    (allows_childrenAs allows .superinterface) extended
  exact addMembers_follows _ (allows_childrenAs allows .member) implemented

theorem declareMethod_follows (allows : naming.Allows resolver node)
    (follows : builder.model.Follows naming) {name : String} (named : naming.method name)
    (owner : TypeId) :
    (builder.declareMethod resolver node owner name).2.model.Follows naming := by
  obtain ⟨followed, slots⟩ := slotsOf_follows (allows_childrenAs allows .parameter) follows
  exact followed.addMethod named slots _

theorem construct_follows (allows : naming.Allows resolver node)
    (follows : builder.model.Follows naming) :
    (builder.construct resolver node).model.Follows naming := by
  rw [construct]
  split
  · next name known =>
      have interned := follows.intern (type_of_typeName allows follows known)
      have constructed (type : TypeId) : ((builder.intern name).2.withModel
          ((builder.intern name).2.model.constructor type).2).model.Follows naming :=
        interned.constructor allows.constructor
      dsimp only
      split
      · exact record_model Model.Follows.addStatement _ (constructed _)
      · exact constructed _
  · exact follows

theorem invoke_follows (allows : naming.Allows resolver node)
    (follows : builder.model.Follows naming) (select : String) :
    (builder.invoke resolver node select).model.Follows naming := by
  rw [invoke]
  split
  · next name known =>
      have interned : (builder.intern name).2.model.Follows naming :=
        follows.intern (type_of_typeName allows follows known)
      exact record_model Model.Follows.addStatement _ interned
  · exact follows

theorem useVariable_follows (allows : naming.Allows resolver node)
    (follows : builder.model.Follows naming) (name : String) :
    (builder.useVariable resolver node name).model.Follows naming := by
  rw [useVariable]
  split
  · exact follows
  · split
    · exact follows
    · next typeName known =>
        have typed : (builder.intern typeName).2.model.Follows naming :=
          follows.intern (type_of_typeName allows follows known)
        dsimp only
        split
        · exact typed
        · next ownerName knownToo =>
            have owned : ((builder.intern typeName).2.intern ownerName).2.model.Follows naming :=
              typed.intern (allows.owners node node.mem_preorder_self ownerName knownToo)
            exact record_model Model.Follows.addStatement _ owned

theorem enter_follows (allows : naming.Allows resolver node)
    (follows : builder.model.Follows naming) :
    (enter resolver node builder).model.Follows naming := by
  unfold enter
  split
  · next name flavor kind =>
      split
      · next qualified declared =>
          refine declareClass_follows allows follows (allows.types node node.mem_preorder_self _ ?_)
          rw [Resolver.typeName, kind, ← follows.packageName]
          exact declared
      · exact follows
  · next name kind =>
      split
      · exact declareMethod_follows allows follows
          (allows.methods node node.mem_preorder_self name kind) _
      · exact follows
  · exact openScope_model Model.Follows.addStatement _ follows
  · exact openScope_model Model.Follows.addStatement _ follows
  · exact openScope_model Model.Follows.addStatement _ follows
  · exact openScope_model Model.Follows.addStatement _ follows
  · exact openScope_model Model.Follows.addStatement _ follows
  · exact follows
  · exact startCase_model Model.Follows.addStatement _ _ follows
  · exact construct_follows allows follows
  · exact invoke_follows allows follows _
  · exact follows
  · exact follows

theorem visitLeaf_follows (allows : naming.Allows resolver node)
    (follows : builder.model.Follows naming) :
    (visitLeaf resolver node builder).model.Follows naming := by
  rw [visitLeaf]
  split
  · exact ⟨follows.path, follows.packageName, follows.types, follows.members, follows.methods,
      follows.parameters⟩
  · exact exitCase_model Model.Follows.addStatement true follows
  · exact useVariable_follows allows follows _
  · exact follows

/-- The visit of a tree gives only the names that the tree may give. -/
theorem visit_follows (allows : naming.Allows resolver node)
    (follows : builder.model.Follows naming) :
    (visit resolver node builder).model.Follows naming := by
  induction node using Node.inductionOnChildren generalizing builder with
  | step node ih =>
      cases descended : node.kind.isDescended with
      | true =>
          have children : (visitAll resolver node.children
              (enter resolver node builder)).model.Follows naming := by
            refine visitAll_holds (fun builder => builder.model.Follows naming)
              (fun child member builder follows => ?_) (enter_follows allows follows)
            rw [visitChild_model]
            exact ih child member (allows.of_child member) (by rwa [enterRole_model])
          rw [visit_eq_leave resolver builder descended]
          exact leaving_model Model.Follows.addStatement
            (opening_of_isDescended resolver builder descended) children
      | false =>
          rw [visit_eq_visitLeaf resolver builder descended]
          exact visitLeaf_follows allows follows

end Builder

/-- The names that a tree gives: to types what is known of its nodes, to methods and variables
their own. -/
def Naming.given (resolver : Resolver) (root : Node) (path : String) : Naming where
  path
  packageName := resolver.packageName
  type name := ∃ node ∈ root.preorder,
    resolver.typeName resolver.packageName node = some name ∨
      resolver.variableOwner node = some name
  method name := name = Syntax.constructorName ∨
    ∃ node ∈ root.preorder, node.kind = .methodDecl name
  slot name := ∃ node ∈ root.preorder, node.kind = .variableDecl name

/-- The model of a unit has only names that its tree gives. -/
theorem Model.ofUnit_follows (resolver : Resolver) (root : Node) (path : String) :
    (Model.ofUnit resolver root path).Follows (.given resolver root path) := by
  have allows : (Naming.given resolver root path).Allows resolver root :=
    { types := fun node inside _ known => ⟨node, inside, .inl known⟩
      owners := fun node inside _ known => ⟨node, inside, .inr known⟩
      methods := fun node inside _ kind => .inr ⟨node, inside, kind⟩
      slots := fun node inside _ kind => ⟨node, inside, kind⟩
      constructor := .inl rfl }
  have initial : (Builder.initial resolver path).model.Follows (.given resolver root path) := by
    refine ⟨rfl, rfl, ?_, ?_, ?_, ?_⟩ <;> rintro item ⟨⟩
  exact Builder.visit_follows allows initial

end JavaStructure
