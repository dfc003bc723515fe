/-
# What declared methods are known by

The method of a declaration is described by what the declaration says of it: its name, the
name of its class and its parameters. Types are described by their names, as a position says
nothing outside the model it is a position of. A description goes on to hold while the model
grows, so the descriptions of what two steps declare can be put one after the other.
-/

import JavaStructure.Proofs.Model.Entries
import Mathlib.Data.List.Forall2

namespace JavaStructure

/-- What a method declaration says of its method, types by their names. -/
structure Signature where
  /-- The node of the declaration. -/
  node : Nat
  owner : String
  name : String
  /-- The names of the parameters with the names of their types. -/
  parameters : List (String × String)
  deriving DecidableEq

namespace Model

variable {model before middle after : Model} {signature : Signature} {header : MethodHeader}
variable {front back : List Signature}

/-- A slot has a name and a type of a certain name. -/
structure DescribesSlot (model : Model) (described : String × String) (slot : Slot) : Prop where
  name : slot.name = described.1
  type : model.nameOf slot.type = some described.2

/-- A method is the one that a declaration speaks of. -/
structure Describes (model : Model) (signature : Signature) (header : MethodHeader) : Prop where
  origin : header.origin = .node signature.node
  owner : model.nameOf header.owner = some signature.owner
  name : header.name = signature.name
  parameters : List.Forall₂ model.DescribesSlot signature.parameters header.parameters

/-- The methods of a model that stand for declarations, in the order of its methods. -/
def declaredMethods (model : Model) : List Method :=
  model.methods.filter (·.origin.node?.isSome)

/-- The methods that stand for declarations, without their statements. -/
def declaredHeaders (model : Model) : List MethodHeader :=
  model.declaredMethods.map (·.header)

theorem declaredHeaders_eq_filter (model : Model) :
    model.declaredHeaders =
      (model.methods.map (·.header)).filter (·.origin.node?.isSome) := by
  rw [declaredHeaders, declaredMethods, List.filter_map]
  rfl

theorem declaredNodes_eq_filterMap (model : Model) :
    model.declaredNodes = (model.methods.map (·.header)).filterMap (·.origin.node?) := by
  rw [declaredNodes, List.filterMap_map]
  rfl

theorem DescribesSlot.grows {described : String × String} {slot : Slot}
    (describes : before.DescribesSlot described slot) (grows : Grows before after) :
    after.DescribesSlot described slot :=
  ⟨describes.name, grows.nameOf describes.type⟩

theorem Describes.grows (describes : before.Describes signature header)
    (grows : Grows before after) : after.Describes signature header where
  origin := describes.origin
  owner := grows.nameOf describes.owner
  name := describes.name
  parameters := describes.parameters.imp fun _ _ slot => slot.grows grows

/-- Methods stand at the nodes of what describes them. -/
theorem nodes_of_describes {headers : List MethodHeader}
    (described : List.Forall₂ model.Describes front headers) :
    headers.filterMap (·.origin.node?) = front.map (·.node) := by
  induction described with
  | nil => rfl
  | @cons signature header signatures headers describes _ ih =>
      have known : header.origin.node? = some signature.node := by
        rw [describes.origin]
        rfl
      simp only [List.filterMap_cons, known, ih, List.map_cons]

/-- A model gets exactly the declared methods that some signatures describe, in their order. -/
structure Declares (signatures : List Signature) (before after : Model) : Prop
    extends Grows before after where
  declaredHeaders : ∃ added, after.declaredHeaders = before.declaredHeaders ++ added ∧
    List.Forall₂ after.Describes signatures added

namespace Declares

/-- Where no node is declared, no method is. -/
theorem of_declaredNodes_eq (grows : Grows before after)
    (same : after.declaredNodes = before.declaredNodes) : Declares [] before after := by
  refine ⟨grows, [], ?_, .nil⟩
  obtain ⟨added, appended⟩ := grows.headers
  have undeclared : added.filterMap (·.origin.node?) = [] := by
    rw [declaredNodes_eq_filterMap, declaredNodes_eq_filterMap, ← appended,
      List.filterMap_append] at same
    exact List.append_right_eq_self.mp same
  have none : added.filter (·.origin.node?.isSome) = [] := by
    rw [List.filter_eq_nil_iff]
    intro header inside
    simp [List.filterMap_eq_nil_iff.mp undeclared header inside]
  rw [declaredHeaders_eq_filter, ← appended, List.filter_append, none,
    ← declaredHeaders_eq_filter]

theorem refl (model : Model) : Declares [] model model :=
  of_declaredNodes_eq (.refl model) rfl

theorem trans (first : Declares front before middle) (second : Declares back middle after) :
    Declares (front ++ back) before after := by
  obtain ⟨added, appended, described⟩ := first.declaredHeaders
  obtain ⟨more, extended, describedToo⟩ := second.declaredHeaders
  refine ⟨first.toGrows.trans second.toGrows, added ++ more, ?_, ?_⟩
  · rw [extended, appended, List.append_assoc]
  · exact List.rel_append
      (described.imp fun _ _ describes => describes.grows second.toGrows) describedToo

/-- A step that declares nothing can be left out. -/
theorem trans_nil (first : Declares front before middle) (second : Declares [] middle after) :
    Declares front before after := by
  simpa using first.trans second

theorem nil_trans (first : Declares [] before middle) (second : Declares back middle after) :
    Declares back before after :=
  first.trans second

/-- A method at a new node is the one declared method that a model gets. -/
theorem addMethod (signature : Signature) (fresh : signature.node ∉ model.declaredNodes)
    {owner : TypeId} {parameters : List Slot} (owned : model.nameOf owner = some signature.owner)
    (slots : List.Forall₂ model.DescribesSlot signature.parameters parameters) :
    Declares [signature] model
      (model.addMethod owner signature.name parameters (.node signature.node)).2 := by
  have grows := (addMethod_registers model owner signature.name parameters
    (.node signature.node)).toGrows
  obtain ⟨-, methods⟩ := addMethod_of_not_mem fresh owner signature.name parameters
  refine ⟨grows, [⟨owner, signature.name, .node signature.node, parameters⟩], ?_,
    .cons ?_ .nil⟩
  · rw [Model.declaredHeaders, declaredMethods, methods, List.filter_append, List.map_append]
    rfl
  · exact Describes.grows ⟨rfl, owned, rfl, slots⟩ grows

end Declares

end Model

end JavaStructure
