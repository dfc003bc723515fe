/-
# The structural model with its indexes

A model that is being filled keeps two indexes beside its lists: the type of each name and
the method of each key. An operation asks an index before it adds to a list, and notes
there what it added. `Model` has the same operations, which search the lists instead.
-/

import JavaStructure.Model.Basic
import Std.Data.HashMap

namespace JavaStructure

/-- What tells a method apart. -/
structure MethodKey where
  owner : TypeId
  name : String
  parameterTypes : List TypeId
  origin : Origin
  deriving DecidableEq, Hashable

def Method.key (method : Method) : MethodKey where
  owner := method.owner
  name := method.name
  parameterTypes := method.parameters.map (·.type)
  origin := method.origin

/-- A model with the types by name and the methods by key. -/
structure IndexedModel extends Model where
  typeIndex : Std.HashMap String TypeId := ∅
  methodIndex : Std.HashMap MethodKey MethodId := ∅

namespace IndexedModel

/-- The type of a name. -/
def lookup (registry : IndexedModel) (name : String) : Option TypeId :=
  registry.typeIndex[name]?

/-- The type of a name, registered if it is new. -/
def intern (registry : IndexedModel) (name : String) : TypeId × IndexedModel :=
  match registry.typeIndex[name]? with
  | some id => (id, registry)
  | none =>
      let id := registry.types.length
      (id, { registry with
        types := registry.types ++ [{ name }]
        typeIndex := registry.typeIndex.insert name id })

/-- The type of a name, registered if it is new, as one that the module
declares. -/
def define (registry : IndexedModel) (name : String) : TypeId × IndexedModel :=
  let (id, registry) := registry.intern name
  (id, { registry with
    toModel := registry.toModel.modifyType id fun entry => { entry with moduleDefined := true } })

/-- Add a relation to a type unless it is there, and tell whether it was added. -/
def addRelation (registry : IndexedModel) (id : TypeId) (relation : Relation) :
    Bool × IndexedModel :=
  (!registry.toModel.hasRelation id relation,
    { registry with toModel := registry.toModel.addRelation id relation })

/-- Add a member variable to a type unless it is there. -/
def addMember (registry : IndexedModel) (id : TypeId) (slot : Slot) : IndexedModel :=
  { registry with toModel := registry.toModel.addMember id slot }

/-- The method of an owner with a name, parameters and an origin, registered if
there is none with these parameter types. -/
def addMethod (registry : IndexedModel) (owner : TypeId) (name : String) (parameters : List Slot)
    (origin : Origin) : MethodId × IndexedModel :=
  let method : Method := { owner, name, origin, parameters }
  match registry.methodIndex[method.key]? with
  | some id => (id, registry)
  | none =>
      let id := registry.methods.length
      let registered := { registry.toModel with methods := registry.methods ++ [method] }
      (id, { registry with
        toModel := registered.modifyType owner fun entry =>
          { entry with methods := entry.methods ++ [id] }
        methodIndex := registry.methodIndex.insert method.key id })

/-- The constructor of a type. One without parameters is synthesized if the type
has none. -/
def constructor (registry : IndexedModel) (owner : TypeId) : MethodId × IndexedModel :=
  match registry.toModel.findMethod owner Syntax.constructorName with
  | some id => (id, registry)
  | none => registry.addMethod owner Syntax.constructorName [] .synthesized

/-- Add a statement at the end of a method. -/
def addStatement (registry : IndexedModel) (id : MethodId) (statement : Statement) :
    IndexedModel :=
  { registry with toModel := registry.toModel.addStatement id statement }

/-- Add an import declaration. -/
def addImport (registry : IndexedModel) (declaration : String) : IndexedModel :=
  { registry with toModel := registry.toModel.addImport declaration }

end IndexedModel

end JavaStructure
