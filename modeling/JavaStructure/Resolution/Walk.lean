/-
# Resolving a unit

One walk over the tree keeps the place up to date and notes a symbol or a scope
at every node that is asked about later. Scopes are shared: as long as the
visible names stay the same, one snapshot serves all nodes.
-/

import Std.Data.TreeMap
import JavaStructure.Resolution.Nesting

namespace JavaStructure.Resolution

open Syntax (Node Kind Role)

/-- A scope with the number under which it was taken. -/
structure Snapshot where
  number : Nat
  scope : Scope

/-- What the walk has found so far. -/
structure Walk where
  place : Place := {}
  symbols : Std.TreeMap Nat Symbol := {}
  scopes : Std.TreeMap Nat Snapshot := {}
  /-- The snapshot that still shows the visible names. -/
  snapshot : Option Snapshot := none
  /-- How many snapshots were taken. -/
  taken : Nat := 0

namespace Walk

/-- Note the symbol of a node. -/
def note (walk : Walk) (id : Nat) (symbol : Symbol) : Walk :=
  { walk with symbols := walk.symbols.insert id symbol }

/-- Enter a named class. -/
def enterClass (walk : Walk) (name : String) : Walk :=
  { walk with
    place := { walk.place with classes := name :: walk.place.classes }
    snapshot := none }

/-- Leave the innermost class. -/
def leaveClass (walk : Walk) : Walk :=
  { walk with
    place := { walk.place with classes := walk.place.classes.tail }
    snapshot := none }

/-- Open a frame of local declarations. Nothing visible changes. -/
def openFrame (walk : Walk) : Walk :=
  { walk with place := { walk.place with frames := [] :: walk.place.frames } }

/-- Close the innermost frame. The visible names change unless it is empty. -/
def closeFrame (walk : Walk) : Walk :=
  match walk.place.frames with
  | [] => walk
  | frame :: outer =>
      { walk with
        place := { walk.place with frames := outer }
        snapshot := if frame.isEmpty then walk.snapshot else none }

/-- Declare a variable in the innermost frame. Without a frame there is nothing
to declare it in. -/
def declare (known : Known) (walk : Walk) (node : Node) (name : String) (kind : SymbolKind) :
    Walk :=
  match walk.place.frames with
  | [] => walk
  | frame :: outer =>
      let declared : Local :=
        { name, typeText := known.declaredType walk.place node, kind }
      { walk with
        place := { walk.place with frames := (declared :: frame) :: outer }
        snapshot := none }

/-- The walk with a snapshot that shows the visible names. -/
def refresh (known : Known) (walk : Walk) : Walk × Snapshot :=
  match walk.snapshot with
  | some snapshot => (walk, snapshot)
  | none =>
      let snapshot := { number := walk.taken, scope := known.scopeAt walk.place }
      ({ walk with snapshot := some snapshot, taken := walk.taken + 1 }, snapshot)

/-- Note the scope of a node. -/
def noteScope (known : Known) (walk : Walk) (id : Nat) : Walk :=
  let (walk, snapshot) := walk.refresh known
  { walk with scopes := walk.scopes.insert id snapshot }

/-- Note symbol and scope of a name. The name of a type has no scope. -/
def resolveName (known : Known) (walk : Walk) (id : Nat) (name : String) (typePosition : Bool) :
    Walk :=
  if typePosition then walk.note id (known.typeSymbol name)
  else
    let noted := match known.nameSymbol? walk.place name with
      | some symbol => walk.note id symbol
      | none => walk
    noted.noteScope known id

/-- Note the dotted name of a constructed type. -/
def noteConstructed (walk : Walk) (node : Node) : Walk :=
  match node.childAs .identifier with
  | some type =>
      if type.kind = .memberSelect then
        let name := Text.unspaced (Names.erase type.text)
        walk.note type.id { kind := .classSymbol, name, qualifiedName := some name }
      else walk
  | none => walk

/-- The symbol of a call. -/
def callSymbol (known : Known) (place : Place) (node : Node) (select : String) : Symbol :=
  { kind := .method
    name := methodName node select
    enclosingType := known.invokedType? place node select }

/-- The symbol of a parameterized type. -/
def parameterizedSymbol (known : Known) (text : String) : Symbol :=
  { kind := .classSymbol
    name := Names.erase text
    qualifiedName := some (known.qualifier.qualify text) }

/-- The constructs that open a frame of local declarations. -/
def opensFrame : Kind → Bool
  | .methodDecl _ | .block | .forLoop | .enhancedFor | .lambda | .switch => true
  | .other rule => rule == "catch_clause" || rule == "try_with_resources_statement"
  | _ => false

/-- The kind of symbol that a variable in a role declares. A field declares
none; fields are known from the class. -/
def declaredKind : Option Role → Option SymbolKind
  | some .member => none
  | some .parameter => some .parameter
  | _ => some .localVariable

mutual

/-- Visit a node. -/
def visit (known : Known) (walk : Walk) : Node → Walk
  | node@⟨id, kind, role, text, _, children⟩ =>
      match kind with
      | .classDecl name _ =>
          if name.isEmpty then visitAll known walk children
          else
            let walk := walk.enterClass (known.qualifier.names.inPackage name)
            (visitAll known walk children).leaveClass
      | .variableDecl name =>
          let walk := visitAll known walk children
          match declaredKind role with
          | some kind => walk.declare known node name kind
          | none => walk
      | .identifier name typePosition => walk.resolveName known id name typePosition
      | .parameterizedType =>
          visitAll known (walk.note id (parameterizedSymbol known text)) children
      | .invocation select =>
          let walk := walk.note id (callSymbol known walk.place node select)
          visitCall known (methodName node select) walk children
      | .creation => visitAll known (walk.noteConstructed node) children
      | _ =>
          if opensFrame kind then (visitAll known walk.openFrame children).closeFrame
          else visitAll known walk children

/-- Visit nodes one after the other. -/
def visitAll (known : Known) (walk : Walk) : List Node → Walk
  | [] => walk
  | node :: rest => visitAll known (visit known walk node) rest

/-- Visit the children of a call. Its name is the name of a method and nothing
else. -/
def visitCall (known : Known) (method : String) (walk : Walk) : List Node → Walk
  | [] => walk
  | node :: rest =>
      let walk :=
        if node.role = some .name then walk.note node.id { kind := .method, name := method }
        else visit known walk node
      visitCall known method walk rest

end

end Walk

end JavaStructure.Resolution
