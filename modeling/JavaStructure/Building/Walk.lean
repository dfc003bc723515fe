/-
# Building a model

One walk over a resolved tree fills the model. Statements are recorded while a
method of a named class is open; what stands outside a method only registers
types. Every body has a frame of its own, so that what a nested body does never
touches the switches and scopes of the body around it.
-/

import JavaStructure.Building.CaseGuard
import JavaStructure.Building.TypeNames
import JavaStructure.Model.Basic
import JavaStructure.Text.Cut

namespace JavaStructure

open Syntax (Node Role)

/-- The label that stands for the default of a switch. -/
def defaultLabel : String := "[default]"

/-- What the walk knows about the body it is in. -/
structure Frame where
  /-- The guards of the open switches, innermost first. -/
  switches : List CaseGuard := []
  /-- How many conditionals and loops are open. -/
  depth : Nat := 0
  loopDepth : Nat := 0
  /-- How many arguments are open. -/
  argumentDepth : Nat := 0
  /-- How many scopes were opened in the body and not closed. -/
  openScopes : Nat := 0

/-- The state of the walk. -/
structure Builder where
  model : Model
  currentClass : Option TypeId := none
  currentMethod : Option MethodId := none
  /-- How many anonymous class bodies are open within the current class. -/
  anonymousDepth : Nat := 0
  frame : Frame := {}

/-- The text of the child in a role, without blanks around it. -/
def textInRole (node : Node) (role : Role) : String :=
  match node.childAs role with
  | some child => Text.trimmed child.text
  | none => ""

/-- The text after the last dot of a called expression. -/
def calledName (select : String) : String :=
  Text.mapChars (fun text => Text.trim (Text.afterLast '.' text)) select

/-- The label of the scope that a conditional or a loop opens. -/
def scopeLabel (node : Node) : Option String :=
  match node.kind with
  | .conditional => some ("[" ++ textInRole node .condition ++ "]")
  | .forLoop | .whileLoop | .doWhileLoop => some ("*[" ++ textInRole node .condition ++ "]")
  | .enhancedFor =>
      some ("*[" ++ textInRole node .loopVariable ++ " : " ++ textInRole node .expression ++ "]")
  | _ => none

namespace Builder

/-- The type that a node refers to. -/
def typeName (resolver : Resolver) (builder : Builder) (node : Node) : Option String :=
  resolver.typeName builder.model.moduleInfo.packageName node

/-- Replace the model. -/
def withModel (builder : Builder) (model : Model) : Builder :=
  { builder with model }

/-- Replace the frame. -/
def withFrame (builder : Builder) (frame : Frame) : Builder :=
  { builder with frame }

/-- The type of a name, registered if it is new. -/
def intern (builder : Builder) (name : String) : TypeId × Builder :=
  let (id, model) := builder.model.intern name
  (id, builder.withModel model)

/-- Record a statement in the open method, if one is open. -/
def record (builder : Builder) (statement : Statement) : Builder :=
  match builder.currentMethod with
  | some id => builder.withModel (builder.model.addStatement id statement)
  | none => builder

/-- Open a scope in the open method, if one is open. -/
def openScope (builder : Builder) (condition : String) : Builder :=
  match builder.currentMethod with
  | some _ =>
      let frame := { builder.frame with openScopes := builder.frame.openScopes + 1 }
      (builder.withFrame frame).record (.openScope condition)
  | none => builder

/-- Close the scope opened last in this body, if one is open. -/
def closeScope (builder : Builder) : Builder :=
  match builder.frame.openScopes with
  | 0 => builder
  | outer + 1 =>
      (builder.withFrame { builder.frame with openScopes := outer }).record .closeScope

/-- Close a number of scopes. -/
def closeScopes : Nat → Builder → Builder
  | 0, builder => builder
  | count + 1, builder => closeScopes count builder.closeScope

/-- Close all scopes that are open in this body. -/
def closeOpenScopes (builder : Builder) : Builder :=
  closeScopes builder.frame.openScopes builder

/-- Do what a guard asks for. -/
def apply (builder : Builder) : ScopeAction → Builder
  | .openScope condition => builder.openScope condition
  | .closeScope => builder.closeScope

/-- Do what a guard asks for, in order. -/
def applyAll (builder : Builder) (actions : List ScopeAction) : Builder :=
  actions.foldl apply builder

/-- Replace the guard of the innermost switch. -/
def withGuard (builder : Builder) (guard : CaseGuard) (outer : List CaseGuard) : Builder :=
  builder.withFrame { builder.frame with switches := guard :: outer }

/-- End the current case of the innermost switch. -/
def endCase (builder : Builder) : Builder :=
  match builder.frame.switches with
  | [] => builder
  | guard :: outer =>
      let (action, guard) := guard.endCase
      (builder.withGuard guard outer).applyAll action.toList

/-- Start a label of the innermost switch. -/
def startCase (builder : Builder) (label : String) (hasBody : Bool) : Builder :=
  match builder.frame.switches with
  | [] => builder
  | guard :: outer =>
      let (actions, guard) := guard.startCase label hasBody
      (builder.withGuard guard outer).applyAll actions

/-- Leave the current case of the innermost switch, as far as it is the one
that is left. -/
def exitCase (builder : Builder) (isBreak : Bool) : Builder :=
  match builder.frame.switches with
  | [] => builder
  | guard :: outer =>
      match guard.exitAt builder.frame.depth builder.frame.loopDepth isBreak with
      | .now => builder.endCase
      | .deferred => builder.withGuard guard.deferEnd outer
      | .notOwned => builder

/-- Enter a switch. -/
def enterSwitch (builder : Builder) (node : Node) : Builder :=
  let guard : CaseGuard :=
    { subject := textInRole node .condition
      loopDepth := builder.frame.loopDepth
      bodyDepth := builder.frame.depth }
  builder.withFrame { builder.frame with switches := guard :: builder.frame.switches }

/-- Leave the innermost switch, its last case ended. -/
def leaveSwitch (builder : Builder) : Builder :=
  match builder.frame.switches with
  | [] => builder
  | guard :: outer =>
      (builder.withFrame { builder.frame with switches := outer }).applyAll
        guard.endCase.1.toList

/-- Enter a conditional or a loop. -/
def enterScoped (builder : Builder) (label : String) (isLoop : Bool) : Builder :=
  let opened := builder.openScope label
  opened.withFrame
    { opened.frame with
      depth := opened.frame.depth + 1
      loopDepth := if isLoop then opened.frame.loopDepth + 1 else opened.frame.loopDepth }

/-- Leave a conditional or a loop. -/
def leaveScoped (builder : Builder) (isLoop : Bool) : Builder :=
  (builder.withFrame
    { builder.frame with
      depth := builder.frame.depth - 1
      loopDepth :=
        if isLoop then builder.frame.loopDepth - 1 else builder.frame.loopDepth }).closeScope

/-- Enter an argument. -/
def enterArgument (builder : Builder) : Builder :=
  builder.withFrame { builder.frame with argumentDepth := builder.frame.argumentDepth + 1 }

/-- Leave an argument. -/
def leaveArgument (builder : Builder) : Builder :=
  builder.withFrame { builder.frame with argumentDepth := builder.frame.argumentDepth - 1 }

/-- Enter a body with a frame of its own. -/
def enterBody (builder : Builder) : Builder :=
  builder.withFrame {}

/-- Leave a body: close what it left open and go on with the frame around it. -/
def leaveBody (builder : Builder) (outer : Frame) : Builder :=
  builder.closeOpenScopes.withFrame outer

/-- The name and type of a variable declaration whose type is known, the type
registered. -/
def slotOf (resolver : Resolver) (builder : Builder) (node : Node) : Option Slot × Builder :=
  match node.kind with
  | .variableDecl name =>
      match (node.childAs .type).bind (builder.typeName resolver) with
      | some typeName =>
          let (type, builder) := builder.intern typeName
          (some { name, type }, builder)
      | none => (none, builder)
  | _ => (none, builder)

/-- The names and types of those declarations whose type is known, in order. -/
def slotsOf (resolver : Resolver) (builder : Builder) : List Node → List Slot × Builder
  | [] => ([], builder)
  | node :: rest =>
      let (slot, builder) := builder.slotOf resolver node
      let (slots, builder) := builder.slotsOf resolver rest
      (slot.toList ++ slots, builder)

/-- Record the relation of a type to a type that is mentioned, if it is known. -/
def relate (resolver : Resolver) (type : TypeId) (kind : RelationKind) (builder : Builder)
    (mentioned : Node) : Builder :=
  match builder.typeName resolver mentioned with
  | some name =>
      let (target, builder) := builder.intern name
      builder.withModel (builder.model.addRelation type { kind, target })
  | none => builder

/-- Record the members of a type whose types are known. -/
def addMembers (resolver : Resolver) (type : TypeId) (builder : Builder) (nodes : List Node) :
    Builder :=
  nodes.foldl (fun builder node =>
    match builder.slotOf resolver node with
    | (some slot, builder) => builder.withModel (builder.model.addMember type slot)
    | (none, builder) => builder) builder

/-- Register a named class with its relations and its member variables. -/
def declareClass (resolver : Resolver) (builder : Builder) (node : Node) (name : String) :
    TypeId × Builder :=
  let (type, model) := builder.model.define name
  let builder := builder.withModel model
  let builder := (node.childrenAs .superclass).foldl (relate resolver type .extension) builder
  let builder :=
    (node.childrenAs .superinterface).foldl (relate resolver type .implementation) builder
  (type, builder.addMembers resolver type (node.childrenAs .member))

/-- Enter a named class. -/
def enterClass (builder : Builder) (type : TypeId) : Builder :=
  { builder with
    currentClass := some type
    currentMethod := none
    anonymousDepth := 0
    frame := {} }

/-- Leave a named class: everything but the model is as it was outside. -/
def leaveClass (builder outside : Builder) : Builder :=
  { outside with model := builder.model }

/-- The class that a method declaration belongs to. A method of an anonymous
class belongs to none. -/
def methodOwner (builder : Builder) : Option TypeId :=
  if builder.anonymousDepth = 0 then builder.currentClass else none

/-- Register a method declaration. -/
def declareMethod (resolver : Resolver) (builder : Builder) (node : Node) (owner : TypeId)
    (name : String) : MethodId × Builder :=
  let (parameters, builder) := builder.slotsOf resolver (node.childrenAs .parameter)
  let (method, model) := builder.model.addMethod owner name parameters (.node node.id)
  (method, builder.withModel model)

/-- Enter a method. -/
def enterMethod (builder : Builder) (method : MethodId) : Builder :=
  { builder with currentMethod := some method, frame := {} }

/-- Leave a method: close what it left open and go on with the method and the
frame around it. -/
def leaveMethod (builder outside : Builder) : Builder :=
  { builder.closeOpenScopes with
    currentMethod := outside.currentMethod
    frame := outside.frame }

/-- Record a construction. The constructed type gets a constructor in any case;
a construction inside an argument is not shown as a call. -/
def construct (resolver : Resolver) (builder : Builder) (node : Node) : Builder :=
  match builder.typeName resolver node with
  | some name =>
      let (type, builder) := builder.intern name
      let builder := builder.withModel (builder.model.constructor type).2
      if builder.frame.argumentDepth = 0 then
        builder.record (.call Syntax.constructorName type)
      else builder
  | none => builder

/-- Record a call on a known type. -/
def invoke (resolver : Resolver) (builder : Builder) (node : Node) (select : String) : Builder :=
  match builder.typeName resolver node with
  | some name =>
      let (target, builder) := builder.intern name
      builder.record (.call (calledName select) target)
  | none => builder

/-- Record the use of a variable in a method. Both its type and the class around
its declaration have to be known. -/
def useVariable (resolver : Resolver) (builder : Builder) (node : Node) (name : String) :
    Builder :=
  match builder.currentMethod with
  | none => builder
  | some _ =>
      match builder.typeName resolver node with
      | none => builder
      | some typeName =>
          let (type, builder) := builder.intern typeName
          match resolver.variableOwner node with
          | none => builder
          | some ownerName =>
              let (owner, builder) := builder.intern ownerName
              builder.record (.variableUse name owner type)

mutual

/-- Visit a node. -/
def visit (resolver : Resolver) : Node → Builder → Builder
  | node@⟨_, kind, _, text, _, children⟩ => fun builder =>
      match kind with
      | .importDecl => builder.withModel (builder.model.addImport (Text.trimmed text))
      | .packageDecl => builder
      | .classDecl name _ =>
          match declaredClassName builder.model.moduleInfo.packageName name with
          | some qualified =>
              let (type, declared) := builder.declareClass resolver node qualified
              (visitAll resolver children (declared.enterClass type)).leaveClass declared
          | none =>
              let inside := { builder.enterBody with anonymousDepth := builder.anonymousDepth + 1 }
              let visited := visitAll resolver children inside
              { visited with anonymousDepth := visited.anonymousDepth - 1 }.leaveBody builder.frame
      | .methodDecl name =>
          match builder.methodOwner with
          | some owner =>
              let (method, declared) := builder.declareMethod resolver node owner name
              (visitAll resolver children (declared.enterMethod method)).leaveMethod declared
          | none => (visitAll resolver children builder.enterBody).leaveBody builder.frame
      | .conditional =>
          let label := (scopeLabel node).getD ""
          (visitAll resolver children (builder.enterScoped label false)).leaveScoped false
      | .forLoop | .whileLoop | .doWhileLoop | .enhancedFor =>
          let label := (scopeLabel node).getD ""
          (visitAll resolver children (builder.enterScoped label true)).leaveScoped true
      | .switch => (visitAll resolver children (builder.enterSwitch node)).leaveSwitch
      | .caseLabel label hasBody arrow =>
          let visited :=
            visitAll resolver children (builder.startCase (label.getD defaultLabel) hasBody)
          if arrow then visited.endCase else visited
      | .breakExit => builder.exitCase true
      | .returnExit => (visitAll resolver children builder).exitCase false
      | .creation => visitAll resolver children (builder.construct resolver node)
      | .invocation select => visitAll resolver children (builder.invoke resolver node select)
      | .identifier name _ => builder.useVariable resolver node name
      | .lambda => (visitAll resolver children builder.enterBody).leaveBody builder.frame
      | _ => visitAll resolver children builder

/-- Visit the children of a node, arguments as such. -/
def visitAll (resolver : Resolver) : List Node → Builder → Builder
  | [], builder => builder
  | node :: rest, builder =>
      let visited :=
        if node.role = some .argument then
          (visit resolver node builder.enterArgument).leaveArgument
        else visit resolver node builder
      visitAll resolver rest visited

end

end Builder

/-- The model of a compilation unit, under the path it is known by. -/
def Model.ofUnit (resolver : Resolver) (root : Node) (path : String) : Model :=
  let moduleInfo : ModuleInfo :=
    { path, packageName := resolver.packageName, lineCount := resolver.lineCount }
  (Builder.visit resolver root { model := { moduleInfo } }).model

end JavaStructure
