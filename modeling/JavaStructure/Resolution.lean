/-
# Symbol information for a unit

The resolution of a unit against the classes that it and other units declare.
Answers may be missing, but resolution never fails.
-/

import JavaStructure.Resolution.Walk

namespace JavaStructure

open Syntax (Node)
open Names (Environment Qualifier)

/-- The symbols and scopes found for one unit. -/
structure Resolution where
  packageName : String
  lineCount : Nat
  symbols : Std.TreeMap Nat Symbol
  scopes : Std.TreeMap Nat Resolution.Snapshot

namespace Resolution

/-- What is known in a unit, given other units as context. The unit comes last,
so that its own declarations win. -/
def knownIn (unit : Node) (context : List Node) : Known :=
  let declarations := Declarations.ofUnits (context ++ [unit])
  { qualifier := { names := Environment.ofUnit unit, declared := declarations.declared }
    classes := declarations.classes }

/-- Resolve a unit, given other units as context. -/
def ofUnit (unit : Node) (lineCount : Nat) (context : List Node) : Resolution :=
  let known := knownIn unit context
  let walk := Walk.visit known {} unit
  { packageName := known.qualifier.names.packageName
    lineCount
    symbols := walk.symbols
    scopes := walk.scopes }

/-- The number of nodes with a symbol. -/
def symbolCount (resolution : Resolution) : Nat :=
  resolution.symbols.size

/-- The number of different snapshots that nodes refer to. -/
def scopeCount (resolution : Resolution) : Nat :=
  (resolution.scopes.values.map (·.number)).eraseDups.length

/-- The answers that a resolution gives about a node. -/
def toResolver (resolution : Resolution) : Resolver where
  packageName := resolution.packageName
  lineCount := resolution.lineCount
  symbol node := resolution.symbols[node.id]?
  scope node := resolution.scopes[node.id]?.map (·.scope)

end Resolution

end JavaStructure
