/-
# References in documents

What the document of a closed model says: the classes of a document are the types of the
model, its generalizations are their relations, and its operations are the methods of the
types that the module declares. Every id of a type that stands in a tag is the id of one of
the classes.
-/

import Mathlib.Data.List.Nodup
import JavaStructure.Interchange.Document
import JavaStructure.Proofs.Building.Closure
import JavaStructure.Proofs.Text.Lines

namespace JavaStructure.Interchange

open Syntax (Node)

namespace Tag

/-- The value of an attribute. -/
def value? (tag : Tag) (key : String) : Option String :=
  tag.attributes.lookup key

/-- Whether a tag begins the element of a class, or is all of it. -/
def isClass (tag : Tag) : Bool :=
  tag.name = "Class" && tag.form ≠ .closing

/-- Whether a tag is a generalization. -/
def isGeneralization (tag : Tag) : Bool :=
  tag.name = "Genrl"

end Tag

namespace Element

/-- The id of an element. -/
def id : Element → Nat
  | .mentioned id _ | .declared id _ _ _ | .generalization id _ _ => id

/-- Whether an element is a generalization. -/
def isGeneralization : Element → Bool
  | .generalization _ _ _ => true
  | _ => false

/-- The operations of an element. -/
def shown : Element → List (Option String × List Tag)
  | .declared id _ _ operations =>
      operations.map fun operation => (some (Text.decimal id), (operationTags operation).dropLast)
  | _ => []

end Element

variable {type : TypeId}

/-- The relations of types, each with the type that has it. -/
def relationsFrom (type : TypeId) (types : List TypeEntry) : List (TypeId × Relation) :=
  (types.zipIdx type).flatMap fun (entry, type) => entry.relations.map (type, ·)

theorem typeElement_isGeneralization (model : Model) (type : TypeId) (entry : TypeEntry) :
    (typeElement model type entry).isGeneralization = false := by
  rw [typeElement]
  split <;> rfl

theorem relationElements_eq (next : Nat) (child : TypeId) (relations : List Relation) :
    relationElements next child relations =
      ((relations.map (child, ·)).zipIdx next).map fun ((child, relation), id) =>
        .generalization id (documentId child) (documentId relation.target) := by
  induction relations generalizing next with
  | nil => rfl
  | cons relation rest ih =>
      rw [relationElements, ih, List.map_cons, List.zipIdx_cons, List.map_cons]

/-- The elements that are no relations are those of the types, in their order. -/
theorem filter_types (model : Model) (next type : Nat) (types : List TypeEntry) :
    (elementsFrom model next type types).filter (fun element => !element.isGeneralization) =
      (types.zipIdx type).map fun (entry, type) => typeElement model type entry := by
  induction types generalizing next type with
  | nil => rfl
  | cons entry rest ih =>
      have none : (relationElements next type entry.relations).filter
          (fun element => !element.isGeneralization) = [] := by
        rw [relationElements_eq, List.filter_map, List.map_eq_nil_iff, List.filter_eq_nil_iff]
        rintro ⟨⟨child, relation⟩, id⟩ _
        simp [Element.isGeneralization]
      calc (elementsFrom model next type (entry :: rest)).filter fun element =>
            !element.isGeneralization
        _ = typeElement model type entry ::
            (relationElements next type entry.relations ++
              elementsFrom model (next + entry.relations.length) (type + 1) rest).filter
                fun element => !element.isGeneralization :=
          List.filter_cons_of_pos (by simp [typeElement_isGeneralization])
        _ = typeElement model type entry :: (rest.zipIdx (type + 1)).map
            fun (entry, type) => typeElement model type entry := by
          rw [List.filter_append, none, ih, List.nil_append]
        _ = _ := rfl

/-- The other elements are the relations, in their order and with one id after another. -/
theorem filter_generalizations (model : Model) (next type : Nat) (types : List TypeEntry) :
    (elementsFrom model next type types).filter Element.isGeneralization =
      ((relationsFrom type types).zipIdx next).map fun ((child, relation), id) =>
        .generalization id (documentId child) (documentId relation.target) := by
  induction types generalizing next type with
  | nil => rfl
  | cons entry rest ih =>
      have all : (relationElements next type entry.relations).filter Element.isGeneralization =
          relationElements next type entry.relations := by
        rw [List.filter_eq_self, relationElements_eq]
        intro element inside
        obtain ⟨⟨⟨child, relation⟩, id⟩, -, rfl⟩ := List.mem_map.mp inside
        rfl
      calc (elementsFrom model next type (entry :: rest)).filter Element.isGeneralization
        _ = (relationElements next type entry.relations ++
            elementsFrom model (next + entry.relations.length) (type + 1) rest).filter
              Element.isGeneralization :=
          List.filter_cons_of_neg (by simp [typeElement_isGeneralization])
        _ = relationElements next type entry.relations ++
            ((relationsFrom (type + 1) rest).zipIdx (next + entry.relations.length)).map
              fun ((child, relation), id) =>
                .generalization id (documentId child) (documentId relation.target) := by
          rw [List.filter_append, all, ih]
        _ = ((entry.relations.map (type, ·) ++ relationsFrom (type + 1) rest).zipIdx next).map
              fun ((child, relation), id) =>
                .generalization id (documentId child) (documentId relation.target) := by
          rw [relationElements_eq, List.zipIdx_append, List.map_append, List.length_map]
        _ = _ := rfl

namespace Element

end Element

variable (model : Model)

theorem mem_relationsFrom {child : TypeId} {relation : Relation}
    (inside : (child, relation) ∈ relationsFrom 0 model.types) :
    ∃ entry, model.types[child]? = some entry ∧ relation ∈ entry.relations := by
  obtain ⟨⟨entry, type⟩, at_, related⟩ := List.mem_flatMap.mp inside
  obtain ⟨relation, known, same⟩ := List.mem_map.mp related
  cases same
  exact ⟨entry, List.mk_mem_zipIdx_iff_getElem?.mp at_, known⟩

/-- An element stands for a type or for one of its relations. -/
theorem mem_elements {element : Element}
    (inside : element ∈ elementsFrom model firstRelationId 0 model.types) :
    (∃ entry type, model.types[type]? = some entry ∧ element = typeElement model type entry) ∨
      ∃ id entry child relation, model.types[child]? = some entry ∧ relation ∈ entry.relations ∧
        element = .generalization id (documentId child) (documentId relation.target) := by
  cases relates : element.isGeneralization with
  | true =>
      have related := List.mem_filter.mpr ⟨inside, relates⟩
      rw [filter_generalizations] at related
      obtain ⟨⟨⟨child, relation⟩, id⟩, known, rfl⟩ := List.mem_map.mp related
      obtain ⟨entry, found, member⟩ := mem_relationsFrom model (List.fst_mem_of_mem_zipIdx known)
      exact .inr ⟨id, entry, child, relation, found, member, rfl⟩
  | false =>
      have typed : element ∈ (elementsFrom model firstRelationId 0 model.types).filter
          fun element => !element.isGeneralization :=
        List.mem_filter.mpr ⟨inside, by simp [relates]⟩
      rw [filter_types] at typed
      obtain ⟨⟨entry, type⟩, known, rfl⟩ := List.mem_map.mp typed
      exact .inl ⟨entry, type, List.mk_mem_zipIdx_iff_getElem?.mp known, rfl⟩

variable {model : Model}

/-- Every method of a type is one of the model. -/
theorem mem_methodsOf {method : Method} (inside : method ∈ model.methodsOf type) :
    method ∈ model.methods := by
  obtain ⟨id, -, found⟩ := List.mem_filterMap.mp inside
  exact List.mem_of_getElem? found

/-- The methods that are shown under a type. -/
def listed (type : TypeId) (entry : TypeEntry) : List (TypeId × MethodId) :=
  if entry.moduleDefined then entry.methods.map (type, ·) else []

/-- The methods that a document shows, each with the type under which it does. -/
def listing (model : Model) : List (TypeId × MethodId) :=
  model.types.zipIdx.flatMap fun (entry, type) => listed type entry

end JavaStructure.Interchange
