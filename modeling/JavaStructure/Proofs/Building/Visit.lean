/-
# The steps of a visit

A visit enters a node, visits its children and leaves the node. `visit` is one
recursive definition over all constructs; this module supplies the same walk as
`enter` and `leave`, and `Opening` lists once what the two do for each construct,
so that a property of the walk is proved by one case for each of these shapes.
`Reaches` says which nodes a walk comes to, and in which states.
-/

import JavaStructure.Building.Walk
import JavaStructure.Proofs.Model.DefinedNames

namespace JavaStructure

open Syntax (Node Role Kind)

namespace Syntax.Kind

/-- Whether a visit goes on to the children of a node. Imports, packages, breaks
and identifiers are visited as a whole. -/
def isDescended : Kind → Bool
  | .packageDecl | .importDecl | .breakExit | .identifier _ _ => false
  | _ => true

/-- Whether a construct is a loop. -/
def isLoop : Kind → Bool
  | .forLoop | .whileLoop | .doWhileLoop | .enhancedFor => true
  | _ => false

/-- Whether a construct is visited for its children alone. -/
def isPlain : Kind → Bool
  | .compilationUnit | .variableDecl _ | .block | .parameterizedType | .memberSelect
  | .thisRef | .superRef | .other _ => true
  | _ => false

end Syntax.Kind

/-- A node without a role and a text of its own. -/
def Syntax.Node.bare (id : Nat) (kind : Kind) (children : List Node) : Node :=
  { id, kind, role := none, text := "", line := 1, children }

/-- A resolver that knows nothing. -/
def Resolver.silent : Resolver :=
  { packageName := "", lineCount := 0, symbol := fun _ => none, scope := fun _ => none }

namespace Builder

variable {resolver : Resolver} {node : Node} {builder before middle after : Builder}

/-- Nothing but the model changes, and the model gets no statement. -/
structure Registers (before after : Builder) : Prop where
  same : after = before.withModel after.model
  model : before.model.Registers after.model

/-- Nothing but the model changes, and the model gets no declared method either. -/
structure Mentions (before after : Builder) : Prop where
  same : after = before.withModel after.model
  model : before.model.Mentions after.model

/-- Nothing but the model changes, and the model gets only types that are mentioned and
constructors that no declaration stands for. -/
structure Refers (before after : Builder) : Prop extends Mentions before after where
  imports : after.model.moduleInfo.imports = before.model.moduleInfo.imports
  definedNames : after.model.definedNames = before.model.definedNames

theorem Mentions.registers (mentions : Mentions before after) : Registers before after :=
  ⟨mentions.same, mentions.model.toRegisters⟩

theorem Registers.trans (first : Registers before middle) (second : Registers middle after) :
    Registers before after := by
  refine ⟨?_, first.model.trans second.model⟩
  rw [second.same, first.same]
  rfl

namespace Mentions

theorem refl (builder : Builder) : Mentions builder builder :=
  ⟨rfl, Model.Mentions.refl _⟩

theorem trans (first : Mentions before middle) (second : Mentions middle after) :
    Mentions before after :=
  ⟨(first.registers.trans second.registers).same, first.model.trans second.model⟩

/-- Mentioning is a change of the model. -/
theorem of_model {model : Model} (mentions : builder.model.Mentions model) :
    Mentions builder (builder.withModel model) :=
  ⟨rfl, mentions⟩

end Mentions

namespace Refers

theorem refl (builder : Builder) : Refers builder builder :=
  ⟨.refl builder, rfl, rfl⟩

theorem trans (first : Refers before middle) (second : Refers middle after) :
    Refers before after :=
  ⟨first.toMentions.trans second.toMentions, second.imports.trans first.imports,
    second.definedNames.trans first.definedNames⟩

end Refers

theorem intern_refers (builder : Builder) (name : String) :
    Refers builder (builder.intern name).2 where
  toMentions := .of_model (Model.intern_mentions _ _)
  imports := congrArg ModuleInfo.imports (Model.moduleInfo_intern ..)
  definedNames := Model.definedNames_intern builder.model name

theorem addRelation_refers (builder : Builder) (type : TypeId) (relation : Relation) :
    Refers builder (builder.withModel (builder.model.addRelation type relation)) where
  toMentions := .of_model (Model.addRelation_mentions ..)
  imports := rfl
  definedNames := Model.definedNames_addRelation ..

theorem addMember_refers (builder : Builder) (type : TypeId) (slot : Slot) :
    Refers builder (builder.withModel (builder.model.addMember type slot)) where
  toMentions := .of_model (Model.addMember_mentions ..)
  imports := rfl
  definedNames := Model.definedNames_addMember ..

theorem constructor_refers (builder : Builder) (type : TypeId) :
    Refers builder (builder.withModel (builder.model.constructor type).2) where
  toMentions := .of_model (Model.constructor_mentions ..)
  imports := congrArg ModuleInfo.imports (Model.moduleInfo_constructor ..)
  definedNames := Model.definedNames_constructor ..

theorem slotOf_refers (resolver : Resolver) (builder : Builder) (node : Node) :
    Refers builder (builder.slotOf resolver node).2 := by
  rw [slotOf]
  split
  · split
    · exact intern_refers ..
    · exact .refl builder
  · exact .refl builder

theorem slotsOf_refers (resolver : Resolver) (builder : Builder) (nodes : List Node) :
    Refers builder (builder.slotsOf resolver nodes).2 := by
  induction nodes generalizing builder with
  | nil => exact .refl builder
  | cons node rest ih => exact (slotOf_refers resolver builder node).trans (ih _)

theorem relate_refers (resolver : Resolver) (type : TypeId) (kind : RelationKind)
    (builder : Builder) (mentioned : Node) :
    Refers builder (builder.relate resolver type kind mentioned) := by
  rw [relate]
  split
  · exact (intern_refers ..).trans (addRelation_refers ..)
  · exact .refl builder

/-- Steps that refer do so in any number. -/
theorem foldl_refers {α : Type} {step : Builder → α → Builder}
    (refers : ∀ builder item, Refers builder (step builder item)) (items : List α)
    (builder : Builder) : Refers builder (items.foldl step builder) := by
  induction items generalizing builder with
  | nil => exact .refl builder
  | cons item rest ih => exact (refers builder item).trans (ih _)

theorem addMembers_refers (resolver : Resolver) (type : TypeId) (builder : Builder)
    (nodes : List Node) : Refers builder (builder.addMembers resolver type nodes) := by
  apply foldl_refers
  intro builder node
  have refers := slotOf_refers resolver builder node
  split
  case h_1 slot found taken =>
      rw [taken] at refers
      exact refers.trans (addMember_refers ..)
  case h_2 found taken =>
      rw [taken] at refers
      exact refers

/-- A class is defined; its relations and members only refer to types. -/
theorem declareClass_refers (resolver : Resolver) (builder : Builder) (node : Node)
    (name : String) :
    Refers (builder.withModel (builder.model.define name).2)
      (builder.declareClass resolver node name).2 := by
  have extended := foldl_refers
    (relate_refers resolver (builder.model.define name).1 .extension)
    (node.childrenAs .superclass) (builder.withModel (builder.model.define name).2)
  have implemented := foldl_refers
    (relate_refers resolver (builder.model.define name).1 .implementation)
    (node.childrenAs .superinterface)
  exact (extended.trans (implemented _)).trans (addMembers_refers ..)

theorem intern_mentions (builder : Builder) (name : String) :
    Mentions builder (builder.intern name).2 :=
  (intern_refers builder name).toMentions

theorem slotsOf_mentions (resolver : Resolver) (builder : Builder) (nodes : List Node) :
    Mentions builder (builder.slotsOf resolver nodes).2 :=
  (slotsOf_refers resolver builder nodes).toMentions

theorem declareClass_mentions (resolver : Resolver) (builder : Builder) (node : Node)
    (name : String) : Mentions builder (builder.declareClass resolver node name).2 := by
  have defined : Mentions builder (builder.withModel (builder.model.define name).2) :=
    .of_model (Model.define_mentions _ name)
  exact defined.trans (declareClass_refers resolver builder node name).toMentions

theorem declareMethod_registers (resolver : Resolver) (builder : Builder) (node : Node)
    (owner : TypeId) (name : String) :
    Registers builder (builder.declareMethod resolver node owner name).2 := by
  rw [declareMethod]
  exact (slotsOf_mentions ..).registers.trans ⟨rfl, Model.addMethod_registers ..⟩

/-- What a reference to a type or a variable does: it registers what it mentions,
and may then be recorded, but never as a scope. -/
inductive Notes (builder : Builder) : Builder → Prop
  | silent {registered : Builder} (refers : Refers builder registered) :
      Notes builder registered
  | call {registered : Builder} (refers : Refers builder registered) (name : String)
      (target : TypeId) : Notes builder (registered.record (.call name target))
  | variableUse {registered : Builder} (refers : Refers builder registered)
      (name : String) (owner type : TypeId) :
      Notes builder (registered.record (.variableUse name owner type))

theorem construct_notes (resolver : Resolver) (builder : Builder) (node : Node) :
    Notes builder (builder.construct resolver node) := by
  rw [construct]
  split
  · next name known =>
      have constructed : Refers builder ((builder.intern name).2.withModel
          ((builder.intern name).2.model.constructor (builder.intern name).1).2) :=
        (intern_refers builder name).trans (constructor_refers ..)
      dsimp only
      split
      · exact .call constructed ..
      · exact .silent constructed
  · exact .silent (.refl builder)

theorem invoke_notes (resolver : Resolver) (builder : Builder) (node : Node) (select : String) :
    Notes builder (builder.invoke resolver node select) := by
  rw [invoke]
  split
  · exact .call (intern_refers ..) ..
  · exact .silent (.refl builder)

theorem useVariable_notes (resolver : Resolver) (builder : Builder) (node : Node) (name : String) :
    Notes builder (builder.useVariable resolver node name) := by
  rw [useVariable]
  split
  · exact .silent (.refl builder)
  · split
    · exact .silent (.refl builder)
    · next typeName known =>
        have typed := intern_refers builder typeName
        dsimp only
        split
        · exact .silent typed
        · exact .variableUse (typed.trans (intern_refers ..)) ..

/-- The state in which the children of a node are visited. -/
def enter (resolver : Resolver) (node : Node) (builder : Builder) : Builder :=
  match node.kind with
  | .classDecl name _ =>
      match declaredClassName builder.model.moduleInfo.packageName name with
      | some qualified =>
          let (type, declared) := builder.declareClass resolver node qualified
          declared.enterClass type
      | none => { builder.enterBody with anonymousDepth := builder.anonymousDepth + 1 }
  | .methodDecl name =>
      match builder.methodOwner with
      | some owner =>
          let (method, declared) := builder.declareMethod resolver node owner name
          declared.enterMethod method
      | none => builder.enterBody
  | .conditional => builder.enterScoped ((scopeLabel node).getD "") false
  | .forLoop | .whileLoop | .doWhileLoop | .enhancedFor =>
      builder.enterScoped ((scopeLabel node).getD "") true
  | .switch => builder.enterSwitch node
  | .caseLabel label hasBody _ => builder.startCase (label.getD defaultLabel) hasBody
  | .creation => builder.construct resolver node
  | .invocation select => builder.invoke resolver node select
  | .lambda => builder.enterBody
  | _ => builder

/-- The state after the visit of a node, from the one before it and the one in
which the visit of its children ends. -/
def leave (node : Node) (builder visited : Builder) : Builder :=
  match node.kind with
  | .classDecl name _ =>
      match declaredClassName builder.model.moduleInfo.packageName name with
      | some _ => visited.leaveClass builder
      | none =>
          { visited with anonymousDepth := visited.anonymousDepth - 1 }.leaveBody builder.frame
  | .methodDecl _ =>
      match builder.methodOwner with
      | some _ => visited.leaveMethod builder
      | none => visited.leaveBody builder.frame
  | .conditional => visited.leaveScoped false
  | .forLoop | .whileLoop | .doWhileLoop | .enhancedFor => visited.leaveScoped true
  | .switch => visited.leaveSwitch
  | .caseLabel _ _ arrow => if arrow then visited.endCase else visited
  | .returnExit => visited.exitCase false
  | .lambda => visited.leaveBody builder.frame
  | _ => visited

/-- The visit of a node whose children are not visited. -/
def visitLeaf (resolver : Resolver) (node : Node) (builder : Builder) : Builder :=
  match node.kind with
  | .importDecl => builder.withModel (builder.model.addImport (Text.trimmed node.text))
  | .breakExit => builder.exitCase true
  | .identifier name _ => builder.useVariable resolver node name
  | _ => builder

/-- A visit enters, visits the children and leaves. -/
theorem visit_eq_leave (resolver : Resolver) (builder : Builder)
    (descended : node.kind.isDescended = true) :
    visit resolver node builder =
      leave node builder (visitAll resolver node.children (enter resolver node builder)) := by
  obtain ⟨id, kind, role, text, line, children⟩ := node
  cases kind with
  | classDecl name flavor =>
      simp only [visit, enter, leave]
      cases declaredClassName builder.model.moduleInfo.packageName name with
      | none => rfl
      | some qualified =>
          have same := (declareClass_mentions resolver builder
            ⟨id, .classDecl name flavor, role, text, line, children⟩ qualified).same
          simp only [leaveClass]
          rw [same]
          rfl
  | methodDecl name =>
      simp only [visit, enter, leave]
      cases builder.methodOwner with
      | none => rfl
      | some owner =>
          have same := (declareMethod_registers resolver builder
            ⟨id, .methodDecl name, role, text, line, children⟩ owner name).same
          simp only [leaveMethod]
          rw [same]
          rfl
  | packageDecl | importDecl | breakExit | identifier _ _ =>
      simp [Kind.isDescended] at descended
  | _ => simp [visit, enter, leave]

/-- A node whose children are not visited is visited in one step. -/
theorem visit_eq_visitLeaf (resolver : Resolver) (builder : Builder)
    (leaf : node.kind.isDescended = false) :
    visit resolver node builder = visitLeaf resolver node builder := by
  obtain ⟨id, kind, role, text, line, children⟩ := node
  cases kind with
  | packageDecl | importDecl | breakExit | identifier _ _ => simp [visit, visitLeaf]
  | _ => simp [Kind.isDescended] at leaf

/-- How a visit enters and leaves a node, one shape for each group of constructs
that is treated alike. -/
inductive Opening (resolver : Resolver) (node : Node) (builder : Builder) :
    Builder → (Builder → Builder) → Prop
  | namedClass {name flavor} (qualified : String) (kind : node.kind = .classDecl name flavor)
      (named : name ≠ "") :
      Opening resolver node builder
        ((builder.declareClass resolver node qualified).2.enterClass
          (builder.declareClass resolver node qualified).1)
        (·.leaveClass builder)
  | anonymousClass {flavor} (kind : node.kind = .classDecl "" flavor) :
      Opening resolver node builder
        { builder.enterBody with anonymousDepth := builder.anonymousDepth + 1 }
        (fun visited =>
          { visited with anonymousDepth := visited.anonymousDepth - 1 }.leaveBody builder.frame)
  | method {name} (owner : TypeId) (kind : node.kind = .methodDecl name)
      (owned : builder.methodOwner = some owner) :
      Opening resolver node builder
        ((builder.declareMethod resolver node owner name).2.enterMethod
          (builder.declareMethod resolver node owner name).1)
        (·.leaveMethod builder)
  | ownerlessMethod {name} (kind : node.kind = .methodDecl name)
      (ownerless : builder.methodOwner = none) :
      Opening resolver node builder builder.enterBody (·.leaveBody builder.frame)
  | lambda (kind : node.kind = .lambda) :
      Opening resolver node builder builder.enterBody (·.leaveBody builder.frame)
  | nesting (label : String) (labelled : scopeLabel node = some label) :
      Opening resolver node builder (builder.enterScoped label node.kind.isLoop)
        (·.leaveScoped node.kind.isLoop)
  | switch (kind : node.kind = .switch) :
      Opening resolver node builder (builder.enterSwitch node) leaveSwitch
  | caseLabel {label hasBody arrow} (kind : node.kind = .caseLabel label hasBody arrow) :
      Opening resolver node builder (builder.startCase (label.getD defaultLabel) hasBody)
        (fun visited => if arrow then visited.endCase else visited)
  | returnExit (kind : node.kind = .returnExit) :
      Opening resolver node builder builder (·.exitCase false)
  | creation (kind : node.kind = .creation) :
      Opening resolver node builder (builder.construct resolver node) (fun visited => visited)
  | invocation {select} (kind : node.kind = .invocation select) :
      Opening resolver node builder (builder.invoke resolver node select) (fun visited => visited)
  | plain (kind : node.kind.isPlain = true) :
      Opening resolver node builder builder (fun visited => visited)

/-- Only the empty name has no qualified form. -/
theorem declaredClassName_eq_none_iff {packageName name : String} :
    declaredClassName packageName name = none ↔ name = "" := by
  rw [declaredClassName]
  split
  · simp_all
  · split <;> simp_all

/-- Every node whose children are visited has one of the shapes. -/
theorem opening_of_isDescended (resolver : Resolver) (builder : Builder)
    (descended : node.kind.isDescended = true) :
    Opening resolver node builder (enter resolver node builder) (leave node builder) := by
  unfold enter leave
  cases kind : node.kind with
  | classDecl name flavor =>
      cases declared : declaredClassName builder.model.moduleInfo.packageName name with
      | none =>
          obtain rfl := declaredClassName_eq_none_iff.mp declared
          exact .anonymousClass kind
      | some qualified =>
          simp only [declared]
          apply Opening.namedClass qualified kind
          intro empty
          rw [declaredClassName_eq_none_iff.mpr empty] at declared
          contradiction
  | methodDecl name =>
      cases owned : builder.methodOwner with
      | none => exact .ownerlessMethod kind owned
      | some owner => exact .method owner kind owned
  | conditional | forLoop | whileLoop | doWhileLoop | enhancedFor =>
      have labelled : scopeLabel node = some ((scopeLabel node).getD "") := by
        simp [scopeLabel, kind]
      have opening : Opening resolver node builder _ _ := .nesting _ labelled
      simpa [kind, Kind.isLoop] using opening
  | switch => exact .switch kind
  | caseLabel label hasBody arrow => exact .caseLabel kind
  | returnExit => exact .returnExit kind
  | creation => exact .creation kind
  | invocation select => exact .invocation kind
  | lambda => exact .lambda kind
  | packageDecl | importDecl | breakExit | identifier _ _ =>
      simp [kind, Kind.isDescended] at descended
  | _ => exact .plain (by simp [kind, Kind.isPlain])

/-- Enter the role that a child plays. Only arguments are counted. -/
def enterRole (child : Node) (builder : Builder) : Builder :=
  if child.role = some .argument then builder.enterArgument else builder

/-- Leave the role that a child plays. -/
def leaveRole (child : Node) (builder : Builder) : Builder :=
  if child.role = some .argument then builder.leaveArgument else builder

/-- Visit a child in its role. -/
def visitChild (resolver : Resolver) (child : Node) (builder : Builder) : Builder :=
  leaveRole child (visit resolver child (enterRole child builder))

/-- The role of a child is of no concern to the model, the method and the switches. -/
theorem enterRole_model (child : Node) (builder : Builder) :
    (enterRole child builder).model = builder.model := by
  rw [enterRole]
  split <;> rfl

theorem enterRole_currentMethod (child : Node) (builder : Builder) :
    (enterRole child builder).currentMethod = builder.currentMethod := by
  rw [enterRole]
  split <;> rfl

theorem enterRole_switches (child : Node) (builder : Builder) :
    (enterRole child builder).frame.switches = builder.frame.switches := by
  rw [enterRole]
  split <;> rfl

theorem visitChild_model (resolver : Resolver) (child : Node) (builder : Builder) :
    (visitChild resolver child builder).model =
      (visit resolver child (enterRole child builder)).model := by
  unfold visitChild leaveRole
  split <;> rfl

@[simp]
theorem visitAll_nil (resolver : Resolver) (builder : Builder) :
    visitAll resolver [] builder = builder := by
  simp [visitAll]

@[simp]
theorem visitAll_cons (resolver : Resolver) (child : Node) (rest : List Node) (builder : Builder) :
    visitAll resolver (child :: rest) builder =
      visitAll resolver rest (visitChild resolver child builder) := by
  by_cases argument : child.role = some .argument <;>
    simp [visitAll, visitChild, enterRole, leaveRole, argument]

theorem visitAll_append (resolver : Resolver) (front back : List Node) (builder : Builder) :
    visitAll resolver (front ++ back) builder =
      visitAll resolver back (visitAll resolver front builder) := by
  induction front generalizing builder with
  | nil => simp
  | cons child rest ih => simp [ih]

/-- What relates the states around the visit of each child relates those around
the visit of all, as long as each visit finds what it needs. -/
theorem visitAll_related (Holds : Builder → Prop) {Related : Builder → Builder → Prop}
    (refl : ∀ builder, Holds builder → Related builder builder)
    (trans : ∀ {before middle after}, Related before middle → Related middle after →
      Related before after)
    {children : List Node}
    (each : ∀ child ∈ children, ∀ builder, Holds builder →
      Related builder (visitChild resolver child builder) ∧
        Holds (visitChild resolver child builder))
    {builder : Builder} (holds : Holds builder) :
    Related builder (visitAll resolver children builder) := by
  induction children generalizing builder with
  | nil => simpa using refl builder holds
  | cons child rest ih =>
      rw [visitAll_cons]
      obtain ⟨first, kept⟩ := each child List.mem_cons_self builder holds
      exact trans first (ih (fun later member => each later (List.mem_cons_of_mem _ member)) kept)

/-- What the visit of each child keeps, the visit of all keeps. -/
theorem visitAll_holds (Holds : Builder → Prop) {children : List Node}
    (each : ∀ child ∈ children, ∀ builder, Holds builder →
      Holds (visitChild resolver child builder))
    {builder : Builder} (holds : Holds builder) : Holds (visitAll resolver children builder) := by
  induction children generalizing builder with
  | nil => simpa using holds
  | cons child rest ih =>
      rw [visitAll_cons]
      exact ih (fun later member => each later (List.mem_cons_of_mem _ member))
        (each child List.mem_cons_self builder holds)

/-- The visit of one node in one state comes to another node in another state:
to itself, or to what the visits of its children come to. -/
inductive Reaches (resolver : Resolver) : Node → Builder → Node → Builder → Prop
  | self {node : Node} {builder : Builder} : Reaches resolver node builder node builder
  | inside {node reached : Node} {builder state : Builder}
      (before : List Node) (child : Node) (after : List Node)
      (descended : node.kind.isDescended = true)
      (children : node.children = before ++ child :: after)
      (onward : Reaches resolver child
        (enterRole child (visitAll resolver before (enter resolver node builder))) reached state) :
      Reaches resolver node builder reached state

/-- The state in which the walk of a unit begins. -/
def initial (resolver : Resolver) (path : String) : Builder :=
  { model :=
      { moduleInfo :=
          { path, packageName := resolver.packageName, lineCount := resolver.lineCount } } }

/-- The model of a unit is what the visit of its root leaves. -/
theorem ofUnit_eq_visit (resolver : Resolver) (root : Node) (path : String) :
    Model.ofUnit resolver root path = (visit resolver root (initial resolver path)).model := rfl

end Builder

end JavaStructure
