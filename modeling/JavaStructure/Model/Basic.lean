/-
# The structural model

The types, methods and statements extracted from one compilation unit. Types
and methods live in two lists and refer to each other by position; a type is
identified by its qualified name alone. Operations on a position that does not
exist change nothing.
-/

import JavaStructure.Syntax.Node

namespace JavaStructure

/-- The position of a type in the registry. -/
abbrev TypeId := Nat

/-- The position of a method in the registry. -/
abbrev MethodId := Nat

/-- The file a model was built from. -/
structure ModuleInfo where
  path : String
  packageName : String
  lineCount : Nat
  /-- The import declarations as written, in source order. -/
  imports : List String := []

/-- How one type relates to another. -/
inductive RelationKind where
  | extension
  | implementation
  deriving DecidableEq

/-- A relation to another type. -/
structure Relation where
  kind : RelationKind
  target : TypeId
  deriving DecidableEq

/-- A name with its type: a member variable or a parameter. -/
structure Slot where
  name : String
  type : TypeId
  deriving DecidableEq

/-- A statement of a method, as far as diagrams show it. -/
inductive Statement where
  | openScope (condition : String)
  | closeScope
  | call (name : String) (target : TypeId)
  | variableUse (name : String) (owner type : TypeId)
  deriving DecidableEq

/-- Where a method comes from. Declarations of one shape are told apart by the
node they stand at. -/
inductive Origin where
  | node (id : Nat)
  | synthesized
  deriving DecidableEq, Hashable

/-- A type of the registry. -/
structure TypeEntry where
  name : String
  /-- Whether the module declares the type, or only mentions it. -/
  moduleDefined : Bool := false
  members : List Slot := []
  methods : List MethodId := []
  relations : List Relation := []

/-- A method of the registry. -/
structure Method where
  owner : TypeId
  name : String
  origin : Origin
  parameters : List Slot
  statements : List Statement := []

/-- The depth of open scopes after some statements, or nothing if one of them
closes a scope that is not open. -/
def scopeDepth (depth : Nat) : List Statement → Option Nat
  | [] => some depth
  | .openScope _ :: rest => scopeDepth (depth + 1) rest
  | .closeScope :: rest =>
      match depth with
      | 0 => none
      | outer + 1 => scopeDepth outer rest
  | _ :: rest => scopeDepth depth rest

/-- Whether statements close exactly the scopes they open, each after its
opening. -/
def isBalanced (statements : List Statement) : Bool :=
  scopeDepth 0 statements == some 0

/-- The model of one compilation unit. -/
structure Model where
  moduleInfo : ModuleInfo
  types : List TypeEntry := []
  methods : List Method := []

namespace Model

/-- The type of a name. -/
def lookup (model : Model) (name : String) : Option TypeId :=
  model.types.findIdx? fun entry => entry.name == name

/-- The type of a name, registered if it is new. -/
def intern (model : Model) (name : String) : TypeId × Model :=
  match model.lookup name with
  | some id => (id, model)
  | none => (model.types.length, { model with types := model.types ++ [{ name }] })

/-- Change the entry of a type. -/
def modifyType (model : Model) (id : TypeId) (change : TypeEntry → TypeEntry) : Model :=
  { model with types := model.types.modify id change }

/-- Change a method. -/
def modifyMethod (model : Model) (id : MethodId) (change : Method → Method) : Model :=
  { model with methods := model.methods.modify id change }

/-- The type of a name, registered if it is new, as one that the module
declares. -/
def define (model : Model) (name : String) : TypeId × Model :=
  let (id, model) := model.intern name
  (id, model.modifyType id fun entry => { entry with moduleDefined := true })

/-- Whether a type has a relation. -/
def hasRelation (model : Model) (id : TypeId) (relation : Relation) : Bool :=
  match model.types[id]? with
  | some entry => entry.relations.contains relation
  | none => false

/-- Add a relation to a type unless it is there. -/
def addRelation (model : Model) (id : TypeId) (relation : Relation) : Model :=
  model.modifyType id fun entry =>
    if entry.relations.contains relation then entry
    else { entry with relations := entry.relations ++ [relation] }

/-- Add a member variable to a type unless it is there. -/
def addMember (model : Model) (id : TypeId) (slot : Slot) : Model :=
  model.modifyType id fun entry =>
    if entry.members.contains slot then entry
    else { entry with members := entry.members ++ [slot] }

/-- Whether a method has an owner, a name, parameter types and an origin. -/
def isMethodFor (owner : TypeId) (name : String) (parameterTypes : List TypeId) (origin : Origin)
    (method : Method) : Bool :=
  method.owner == owner && method.name == name &&
    method.parameters.map (·.type) == parameterTypes && method.origin == origin

/-- The method of an owner with a name, parameters and an origin, registered if
there is none with these parameter types. -/
def addMethod (model : Model) (owner : TypeId) (name : String) (parameters : List Slot)
    (origin : Origin) : MethodId × Model :=
  match model.methods.findIdx? (isMethodFor owner name (parameters.map (·.type)) origin) with
  | some id => (id, model)
  | none =>
      let id := model.methods.length
      let method : Method := { owner, name, origin, parameters }
      let registered := { model with methods := model.methods ++ [method] }
      (id, registered.modifyType owner fun entry =>
        { entry with methods := entry.methods ++ [id] })

/-- The methods of a type by position, in declaration order. -/
def methodIds (model : Model) (owner : TypeId) : List MethodId :=
  match model.types[owner]? with
  | some entry => entry.methods
  | none => []

/-- The first method of a type with a name. -/
def findMethod (model : Model) (owner : TypeId) (name : String) : Option MethodId :=
  (model.methodIds owner).find? fun id =>
    match model.methods[id]? with
    | some method => method.name == name
    | none => false

/-- The constructor of a type. One without parameters is synthesized if the type
has none. -/
def constructor (model : Model) (owner : TypeId) : MethodId × Model :=
  match model.findMethod owner Syntax.constructorName with
  | some id => (id, model)
  | none => model.addMethod owner Syntax.constructorName [] .synthesized

/-- The methods of a type, in declaration order. -/
def methodsOf (model : Model) (owner : TypeId) : List Method :=
  (model.methodIds owner).filterMap fun id => model.methods[id]?

/-- Add a statement at the end of a method. -/
def addStatement (model : Model) (id : MethodId) (statement : Statement) : Model :=
  model.modifyMethod id fun method =>
    { method with statements := method.statements ++ [statement] }

/-- Add an import declaration. -/
def addImport (model : Model) (declaration : String) : Model :=
  { model with
    moduleInfo := { model.moduleInfo with imports := model.moduleInfo.imports ++ [declaration] } }

end Model

end JavaStructure
