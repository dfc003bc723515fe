/-
# Declared classes

The classes that are declared in the units at hand: the qualified name of every
simple name, and the fields, methods and superclass of every class. From these
come the chain of superclasses of a class and the search for a member along it.
-/

import JavaStructure.Names.Qualify

namespace JavaStructure

open Syntax (Node)
open Names (Environment Qualifier objectType)

/-- The members of one declared class, type texts already qualified. -/
structure ClassInfo where
  /-- Names and types of the fields, in source order. -/
  fields : List (String × String) := []
  /-- Names and return types of the methods, in source order. A constructor has
  no return type. -/
  methods : List (String × Option String) := []
  superclass : Option String := none

/-- Declared classes by qualified name. Of two classes of one name the one that
stands first in the list counts. -/
abbrev ClassTable := List (String × ClassInfo)

/-- The simple names declared in a tree with their qualified names, latest
declaration first. -/
def declaredIn (names : Environment) : Node → List (String × String)
  | ⟨_, kind, _, _, _, children⟩ =>
      declaredAmong names children ++
        match kind with
        | .classDecl name _ => if name.isEmpty then [] else [(name, names.inPackage name)]
        | _ => []
where
  /-- The simple names declared in a list of trees, latest declaration first. -/
  declaredAmong (names : Environment) : List Node → List (String × String)
    | [] => []
    | node :: rest => declaredAmong names rest ++ declaredIn names node

namespace ClassInfo

/-- Take a child in the role of a superclass into account. The first counts. -/
def addSuperclass (q : Qualifier) (info : ClassInfo) (member : Node) : ClassInfo :=
  if member.role = some .superclass ∧ info.superclass.isNone then
    { info with superclass := some (q.qualify member.text) }
  else info

/-- Take one more child of a class declaration into account. Of two fields or
methods of one name the first one stands first. -/
def addMember (q : Qualifier) (info : ClassInfo) (member : Node) : ClassInfo :=
  match member.kind with
  | .variableDecl name =>
      if member.role = some .member then
        let type := match member.childAs .type with
          | some type => q.qualifyText type.text
          | none => objectType
        { info with fields := info.fields ++ [(name, type)] }
      else addSuperclass q info member
  | .methodDecl name =>
      let returned := (member.childAs .returnType).map fun type => q.qualify type.text
      { info with methods := info.methods ++ [(name, returned)] }
  | _ => addSuperclass q info member

/-- The members of a class declaration. -/
def ofChildren (q : Qualifier) (children : List Node) : ClassInfo :=
  children.foldl (addMember q) {}

end ClassInfo

/-- The classes declared in a tree, latest declaration first. -/
def classesIn (q : Qualifier) : Node → ClassTable
  | ⟨_, kind, _, _, _, children⟩ =>
      classesAmong q children ++
        match kind with
        | .classDecl name _ =>
            if name.isEmpty then []
            else [(q.names.inPackage name, ClassInfo.ofChildren q children)]
        | _ => []
where
  /-- The classes declared in a list of trees, latest declaration first. -/
  classesAmong (q : Qualifier) : List Node → ClassTable
    | [] => []
    | node :: rest => classesAmong q rest ++ classesIn q node

namespace ClassTable

/-- The superclass recorded for a class. -/
def superclass? (classes : ClassTable) (name : String) : Option String :=
  (classes.lookup name).bind (·.superclass)

/-- Extend a chain from its last class as long as the table records a
superclass that the chain does not hold yet, up to `bound` times. -/
def extendChain (classes : ClassTable) : Nat → List String → String → List String
  | 0, chain, _ => chain
  | bound + 1, chain, current =>
      match classes.superclass? current with
      | none => chain
      | some parent =>
          if parent ∈ chain then chain
          else extendChain classes bound (chain ++ [parent]) parent

/-- A class followed by its known superclasses. Every step but the last starts
from a class of the table that was not used before, so the number of classes
bounds the steps. -/
def chain (classes : ClassTable) (name : String) : List String :=
  extendChain classes (classes.length + 1) [name] name

/-- The superclass of a class, the root of the hierarchy where none is known. -/
def superclassOf (classes : ClassTable) (name : String) : String :=
  (classes.superclass? name).getD objectType

/-- The field of a name that a class declares itself. -/
def ownField? (classes : ClassTable) (owner name : String) : Option String :=
  (classes.lookup owner).bind fun info => info.fields.lookup name

/-- The field of a name along a chain of superclasses, with its owner. -/
def inheritedField? (classes : ClassTable) (owner name : String) : Option (String × String) :=
  (classes.chain owner).findSome? fun ancestor =>
    (classes.ownField? ancestor name).map fun type => (ancestor, type)

/-- Whether a class declares a method of a name itself. -/
def declaresMethod (classes : ClassTable) (owner name : String) : Bool :=
  match classes.lookup owner with
  | some info => (info.methods.lookup name).isSome
  | none => false

/-- The first return type known for a method of a name along a chain. -/
def returnType? (classes : ClassTable) (owner name : String) : Option String :=
  (classes.chain owner).findSome? fun ancestor =>
    ((classes.lookup ancestor).bind fun info => info.methods.lookup name).join

/-- The fields of a class and of its known superclasses. -/
def allFields (classes : ClassTable) (owner : String) : List (String × String) :=
  (classes.chain owner).flatMap fun ancestor =>
    match classes.lookup ancestor with
    | some info => info.fields
    | none => []

end ClassTable

/-- All that the units at hand declare. -/
structure Declarations where
  declared : List (String × String)
  classes : ClassTable

/-- The declarations of a list of trees. Names are collected from all of them
before any class is looked at; a later tree wins over an earlier one. -/
def Declarations.ofUnits (units : List Node) : Declarations :=
  let declared := units.foldl (fun found unit =>
    declaredIn (Environment.ofUnit unit) unit ++ found) []
  { declared
    classes := units.foldl (fun found unit =>
      classesIn { names := Environment.ofUnit unit, declared } unit ++ found) [] }

end JavaStructure
