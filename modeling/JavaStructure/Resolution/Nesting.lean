/-
# What is visible at a place

The place of a node in its unit is given by the classes around it and by the
frames of local declarations that are open there. From the place and from the
declarations at hand follow the variable a name refers to, the scope, and the
static type of an expression as far as it can be told.
-/

import JavaStructure.Classes
import JavaStructure.Symbol

namespace JavaStructure.Resolution

open Syntax (Node)
open Names (Qualifier erase)

/-- What does not change during the resolution of a unit. -/
structure Known where
  qualifier : Qualifier
  classes : ClassTable

/-- A parameter or a local variable with the text of its type. -/
structure Local where
  name : String
  typeText : String
  kind : SymbolKind
  deriving DecidableEq

/-- A place in a unit. -/
structure Place where
  /-- The qualified names of the named classes around the place, innermost
  first. -/
  classes : List String := []
  /-- The open frames of local declarations, innermost first, each with its
  latest declaration first. -/
  frames : List (List Local) := []

namespace Place

/-- The innermost named class around the place. -/
def currentClass (place : Place) : Option String :=
  place.classes.head?

/-- The visible parameters and local variables, innermost and latest first. -/
def locals (place : Place) : List Local :=
  place.frames.flatten

/-- The local that a name refers to. -/
def findLocal? (place : Place) (name : String) : Option Local :=
  place.locals.find? fun candidate => candidate.name = name

end Place

namespace Known

/-- The field that a name refers to, with its owner: the classes around the
place are searched innermost first, each with its known superclasses. -/
def findField? (known : Known) (place : Place) (name : String) : Option (String × String) :=
  place.classes.findSome? fun owner => known.classes.inheritedField? owner name

/-- The scope at a place. -/
def scopeAt (known : Known) (place : Place) : Scope where
  enclosingClass := place.currentClass
  locals := place.locals.map fun candidate => ⟨candidate.name, candidate.typeText⟩
  members := (place.classes.flatMap known.classes.allFields).map fun (name, type) => ⟨name, type⟩

/-- The type of the field that an expression of a known type selects. -/
def fieldType? (known : Known) (owner name : String) : Option String :=
  (known.classes.inheritedField? owner name).map fun (_, type) => erase type

end Known

/-- A name that starts with an upper-case letter. -/
def startsUpper (name : String) : Bool :=
  match name.toList with
  | c :: _ => Names.isUpperLetter c
  | [] => false

/-- A name of more than one character in upper-case letters, digits and
underscores: the name of a constant rather than of a type. -/
def isConstantCase (name : String) : Bool :=
  name.toList.length > 1 &&
    name.toList.all fun c => Names.isUpperLetter c || c.isDigit || c == '_'

/-- Whether a name that is no variable is taken for the name of a type. -/
def Known.looksLikeType (known : Known) (name : String) : Bool :=
  known.qualifier.knows name || (startsUpper name && !isConstantCase name)

/-- The last segment of a dotted text, without blanks around it. -/
def lastSegment (text : String) : String :=
  Text.mapChars (fun text => Text.trim (Text.afterLast '.' text)) text

/-- The name of the method a call invokes. -/
def methodName (node : Node) (select : String) : String :=
  match (node.childAs .name).bind Node.name? with
  | some name => name
  | none => lastSegment select

namespace Known

/-- The type that a call without a receiver is made on: the class itself or its
superclass for the call of another constructor, else the innermost class around
the place that has or inherits the method, else the known superclass of the
innermost class, where the method may come from, else that class. -/
def implicitReceiver? (known : Known) (place : Place) (select name : String) : Option String :=
  place.currentClass.map fun current =>
    if Text.trimmed select = "this" then current
    else if Text.trimmed select = "super" then known.classes.superclassOf current
    else
      let owner := place.classes.findSome? fun around =>
        (known.classes.chain around).find? fun ancestor =>
          known.classes.declaresMethod ancestor name
      owner.getD ((known.classes.superclass? current).getD current)

/-- The erased type of a name that is used as an expression. -/
def nameType? (known : Known) (place : Place) (name : String) : Option String :=
  match place.findLocal? name with
  | some found => some (erase found.typeText)
  | none =>
      match known.findField? place name with
      | some (_, type) => some (erase type)
      | none =>
          if known.looksLikeType name then some (known.qualifier.qualify name) else none

/-- The type of a selected member, given the type of what it is selected from:
the field's type if there is such a field, else the text itself if it can be the
name of a type. -/
def memberType? (known : Known) (owner : Option String) (text : String) : Option String :=
  let plain := Text.unspaced (erase text)
  let member := Text.mapChars (Text.afterLast '.') plain
  match owner.bind fun owner => known.fieldType? owner member with
  | some type => some type
  | none => if startsUpper member then some plain else none

mutual

/-- The erased static type of an expression, where it can be told. -/
def expressionType? (known : Known) (place : Place) : Node → Option String
  | node@⟨_, kind, _, text, _, children⟩ =>
      match kind with
      | .identifier name true => some (known.qualifier.qualify name)
      | .identifier name false => known.nameType? place name
      | .thisRef => place.currentClass
      | .superRef => place.currentClass.map known.classes.superclassOf
      | .invocation select =>
          let name := methodName node select
          let owner := match receiverType? known place children with
            | some type => type
            | none => known.implicitReceiver? place select name
          owner.bind fun owner => known.classes.returnType? owner name
      | .creation =>
          (node.childAs .identifier).map fun type =>
            known.qualifier.qualify (Text.unspaced type.text)
      | .memberSelect =>
          known.memberType? (receiverType? known place children).join text
      | .other "string_literal" => some "java.lang.String"
      | .other "text_block" => some "java.lang.String"
      | .other "parenthesized_expression" => firstType? known place children
      | .other "cast_expression" =>
          children.head?.map fun type => known.qualifier.qualify type.text
      | _ => none

/-- The type of the first child that is a receiver, if there is such a child. -/
def receiverType? (known : Known) (place : Place) : List Node → Option (Option String)
  | [] => none
  | child :: rest =>
      if child.role = some .object then some (expressionType? known place child)
      else receiverType? known place rest

/-- The type of the first child. -/
def firstType? (known : Known) (place : Place) : List Node → Option String
  | [] => none
  | child :: _ => expressionType? known place child

end

/-- The type that a call is made on. -/
def invokedType? (known : Known) (place : Place) (node : Node) (select : String) :
    Option String :=
  match known.receiverType? place node.children with
  | some type => type
  | none => known.implicitReceiver? place select (methodName node select)

/-- The text of the type a variable is declared with. A variable declared with
`var` has the type of its initial value. -/
def declaredType (known : Known) (place : Place) (node : Node) : String :=
  match node.childAs .type with
  | none => Names.objectType
  | some type =>
      if Text.trimmed type.text = "var" then
        ((node.childAs .initialValue).bind (known.expressionType? place)).getD Names.objectType
      else known.qualifier.qualifyText type.text

/-- The symbol of a name in the position of a type. -/
def typeSymbol (known : Known) (name : String) : Symbol :=
  { kind := .classSymbol, name, qualifiedName := some (known.qualifier.qualify name) }

/-- The symbol of a name in any other position: a local, a field, a type or a
constant, the first of them that applies. -/
def nameSymbol? (known : Known) (place : Place) (name : String) : Option Symbol :=
  match place.findLocal? name with
  | some found =>
      some
        { kind := found.kind
          name
          qualifiedName := if found.kind = .localVariable then some name else none
          enclosingType := place.currentClass }
  | none =>
      match known.findField? place name with
      | some (owner, _) =>
          some { kind := .field, name, qualifiedName := some name, enclosingType := some owner }
      | none =>
          if known.looksLikeType name then some (known.typeSymbol name)
          else if isConstantCase name then some { kind := .enumConstant, name }
          else none

end Known

end JavaStructure.Resolution
