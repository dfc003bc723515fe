/-
# What a tree leaves in its methods

The walk keeps track of its surroundings in a state that is saved, reset and
restored. Here the same is said without a state: a place holds what the nodes
around a node say about it, and each node leaves at most one entry, in the method
of its place. The entries of a tree are those of its nodes in pre-order.
-/

import JavaStructure.Proofs.Building.Visit
import JavaStructure.Proofs.Syntax.Preorder
import JavaStructure.Proofs.Model.Entries

namespace JavaStructure

open Syntax (Node Kind)

/-- What the nodes around a node say about it. -/
structure Place where
  /-- Whether the innermost class declaration around it has a name. -/
  inNamedClass : Bool := false
  /-- The method declaration that its entries belong to. -/
  method : Option Nat := none
  /-- The expression of the innermost switch around it in the same body. -/
  subject : Option String := none
  /-- Whether it stands in an argument within the same body. -/
  inArgument : Bool := false

namespace Place

/-- The place below a node. A named class declaration ends the method around it
and a method declaration in a named class starts one; all other bodies go on with
the method around them. -/
def below (place : Place) (node : Node) : Place :=
  match node.kind with
  | .classDecl name _ =>
      if name = "" then { place with inNamedClass := false, subject := none, inArgument := false }
      else { inNamedClass := true }
  | .methodDecl _ =>
      { place with
        method := if place.inNamedClass then some node.id else place.method
        subject := none
        inArgument := false }
  | .lambda => { place with subject := none, inArgument := false }
  | .switch => { place with subject := some (textInRole node .condition) }
  | _ => place

/-- The place of a child in its role. -/
def inRole (place : Place) (child : Node) : Place :=
  { place with inArgument := place.inArgument || child.role = some .argument }

end Place

/-- What a node leaves in a method, types by their names. -/
inductive Emission where
  /-- The scope of a conditional or a loop. -/
  | scope (label : String)
  /-- The scope of a case. -/
  | caseScope (subject label : String)
  | call (name target : String)
  | variableUse (name owner type : String)
  deriving DecidableEq

/-- What a node leaves at a place, if it leaves anything. -/
def emission? (resolver : Resolver) (place : Place) (node : Node) : Option Emission :=
  match node.kind with
  | .conditional | .forLoop | .whileLoop | .doWhileLoop | .enhancedFor =>
      (scopeLabel node).map .scope
  | .caseLabel label hasBody _ =>
      if hasBody then place.subject.map (.caseScope · (label.getD defaultLabel)) else none
  | .invocation select =>
      (resolver.typeName resolver.packageName node).map (.call (calledName select))
  | .creation =>
      if place.inArgument then none
      else (resolver.typeName resolver.packageName node).map (.call Syntax.constructorName)
  | .identifier name _ =>
      (resolver.typeName resolver.packageName node).bind fun type =>
        (resolver.variableOwner node).map (.variableUse name · type)
  | _ => none

/-- An entry of the method around a place, if there are both. -/
def Place.entries (place : Place) (emission : Option Emission) : List (Nat × Emission) :=
  match place.method, emission with
  | some method, some emission => [(method, emission)]
  | _, _ => []

/-- What a node leaves at a place, with the method it belongs to. -/
def emitted (resolver : Resolver) (place : Place) (node : Node) : List (Nat × Emission) :=
  place.entries (emission? resolver place node)

/-- The method declaration that a node starts. -/
def declared (place : Place) (node : Node) : List Nat :=
  match node.kind with
  | .methodDecl _ => if place.inNamedClass then [node.id] else []
  | _ => []

namespace Syntax.Node

/-- What the nodes of a tree yield at their places, in pre-order. A parameter says
below which nodes to look. -/
def gather {α : Type} (descends : Kind → Bool) (yields : Place → Node → List α) (place : Place) :
    Node → List α
  | node@⟨_, kind, _, _, _, children⟩ =>
      yields place node ++
        if descends kind then gatherAll (place.below node) children else []
where
  /-- What the nodes of some trees yield, tree by tree. -/
  gatherAll (place : Place) : List Node → List α
    | [] => []
    | child :: rest =>
        child.gather descends yields (place.inRole child) ++ gatherAll place rest

theorem gather_eq {α : Type} (descends : Kind → Bool) (yields : Place → Node → List α)
    (place : Place) (node : Node) :
    node.gather descends yields place = yields place node ++
      if descends node.kind then gather.gatherAll descends yields (place.below node) node.children
      else [] := by
  obtain ⟨id, kind, role, text, line, children⟩ := node
  rw [gather]

end Syntax.Node

/-- Each node starts at most the declaration that it is. -/
theorem declared_sublist (place : Place) (node : Node) :
    (declared place node).Sublist [node.id] := by
  rw [declared]
  split
  · split
    · exact .refl _
    · exact List.nil_sublist _
  · exact List.nil_sublist _

theorem gatherAll_declared_sublist (descends : Kind → Bool) {children : List Node}
    (each : ∀ child ∈ children, ∀ place,
      (child.gather descends declared place).Sublist (child.preorder.map (·.id)))
    (place : Place) :
    (Node.gather.gatherAll descends declared place children).Sublist
      ((Node.preorder.preorderAll children).map (·.id)) := by
  induction children with
  | nil => exact List.nil_sublist _
  | cons child rest ih =>
      rw [Node.gather.gatherAll, Node.preorder.preorderAll, List.map_append]
      exact (each child List.mem_cons_self _).append
        (ih fun later member => each later (List.mem_cons_of_mem _ member))

/-- The declarations of a tree are among its nodes, in their order. -/
theorem gather_declared_sublist (descends : Kind → Bool) (node : Node) (place : Place) :
    (node.gather descends declared place).Sublist (node.preorder.map (·.id)) := by
  induction node using Node.inductionOnChildren generalizing place with
  | step node ih =>
      rw [Node.gather_eq, Node.preorder_eq, List.map_cons, ← List.singleton_append]
      apply (declared_sublist place node).append
      split
      · exact gatherAll_declared_sublist descends ih _
      · exact List.nil_sublist _

/-- The entries of a tree, each with its method. -/
def emissions (descends : Kind → Bool) (resolver : Resolver) (root : Node) :
    List (Nat × Emission) :=
  root.gather descends (emitted resolver) {}

/-- The entries that belong to one method. -/
def attributedTo (method : Nat) (entries : List (Nat × Emission)) : List Emission :=
  (entries.filter (·.1 = method)).map (·.2)

theorem attributedTo_append (method : Nat) (front back : List (Nat × Emission)) :
    attributedTo method (front ++ back) =
      attributedTo method front ++ attributedTo method back := by
  simp [attributedTo]

/-- A statement shows an entry. The condition of a case ends with its own term. -/
inductive Shows (model : Model) : Emission → Statement → Prop
  | scope (label : String) : Shows model (.scope label) (.openScope label)
  | caseScope {subject label : String} (front : String) :
      Shows model (.caseScope subject label)
        (.openScope ("[" ++ (front ++ (subject ++ " == " ++ label)) ++ "]"))
  | call {name targetName : String} {target : TypeId}
      (known : model.nameOf target = some targetName) :
      Shows model (.call name targetName) (.call name target)
  | variableUse {name ownerName typeName : String} {owner type : TypeId}
      (knownOwner : model.nameOf owner = some ownerName)
      (knownType : model.nameOf type = some typeName) :
      Shows model (.variableUse name ownerName typeName) (.variableUse name owner type)

end JavaStructure
