/-
# Symbols and scopes

What is known about the names in a tree. Every question may stay without an
answer; no answer means that nothing is known, and is never an error.
-/

import JavaStructure.Syntax.Node

namespace JavaStructure

/-- The kinds of things a name can refer to. -/
inductive SymbolKind where
  | classSymbol
  | interfaceSymbol
  | enumSymbol
  | annotationSymbol
  | enumConstant
  | packageSymbol
  | method
  | constructor
  | field
  | parameter
  | localVariable
  | other
  deriving DecidableEq

namespace SymbolKind

/-- The kinds that name a type. -/
def isType : SymbolKind → Bool
  | .classSymbol | .interfaceSymbol | .enumSymbol => true
  | _ => false

/-- The kinds that name a place for a value. -/
def isVariable : SymbolKind → Bool
  | .parameter | .localVariable | .field => true
  | _ => false

end SymbolKind

/-- What a name refers to. -/
structure Symbol where
  kind : SymbolKind
  /-- The simple name as written. -/
  name : String
  qualifiedName : Option String := none
  /-- The type that declares it. For a call this is the type it is made on. -/
  enclosingType : Option String := none
  deriving DecidableEq

/-- A name visible in a scope with the text of its type. -/
structure Element where
  name : String
  typeName : String
  deriving DecidableEq

/-- The names visible at a place. -/
structure Scope where
  /-- The innermost class around the place. -/
  enclosingClass : Option String := none
  /-- Parameters and local variables, innermost first. -/
  locals : List Element := []
  /-- Members of the classes around the place, innermost first. -/
  members : List Element := []
  deriving DecidableEq

/-- Symbol information for the nodes of one compilation unit. -/
structure Resolver where
  /-- The package of the unit, empty for the unnamed one. -/
  packageName : String
  lineCount : Nat
  symbol : Syntax.Node → Option Symbol
  scope : Syntax.Node → Option Scope

end JavaStructure
