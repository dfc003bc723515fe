/-
# The type a node refers to

Which of the answers of a resolver counts for a node. Nothing is answered where
no type is known; a statement or a relation is then left out.
-/

import JavaStructure.Symbol

namespace JavaStructure

open Syntax (Node)

/-- The qualified name of a class that a unit declares, unless it is anonymous. -/
def declaredClassName (packageName simple : String) : Option String :=
  if simple.isEmpty then none
  else if packageName.isEmpty then some simple
  else some (packageName ++ "." ++ simple)

namespace Resolver

/-- The type of the first visible element that is spelled like a node: locals
come before members. -/
def scopeLookup (resolver : Resolver) (node : Node) : Option String :=
  (resolver.scope node).bind fun scope =>
    let wanted := node.name?.getD node.text
    ((scope.locals ++ scope.members).find? fun element => element.name = wanted).map (·.typeName)

/-- The type of an identifier: a type is itself, a local variable goes by its
qualified name, a parameter or a field is looked up in the scope, and packages,
methods and constants have none. -/
def identifierType (resolver : Resolver) (node : Node) : Option String :=
  match resolver.symbol node with
  | none => resolver.scopeLookup node
  | some symbol =>
      match symbol.kind with
      | .classSymbol | .interfaceSymbol | .enumSymbol | .localVariable => symbol.qualifiedName
      | .packageSymbol | .method | .constructor | .enumConstant | .annotationSymbol => none
      | .field | .parameter | .other => resolver.scopeLookup node

/-- The class around the declaration of a variable, for a node in a class that
refers to a variable. -/
def variableOwner (resolver : Resolver) (node : Node) : Option String := do
  let scope ← resolver.scope node
  let _ ← scope.enclosingClass
  let symbol ← resolver.symbol node
  if symbol.kind.isVariable then symbol.enclosingType else none

/-- The type that a node refers to. For a call this is the type it is made on,
not the type of its value. -/
def typeName (resolver : Resolver) (packageName : String) (node : Node) : Option String :=
  match node.kind with
  | .parameterizedType => (resolver.symbol node).bind (·.qualifiedName)
  | .invocation _ => (resolver.symbol node).bind (·.enclosingType)
  | .creation => (node.childAs .identifier).bind resolver.identifierType
  | .classDecl name _ => declaredClassName packageName name
  | .identifier _ _ => resolver.identifierType node
  | _ => none

end Resolver

end JavaStructure
