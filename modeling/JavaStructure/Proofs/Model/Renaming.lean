/-
# Models under other node ids

The only ids in a model are those of the nodes at which its methods are declared. They tell
methods of one shape apart and are not shown, so a renaming that keeps ids apart goes through
every operation on a model and leaves the document as it is.
-/

import JavaStructure.Interchange.Document
import Mathlib.Logic.Function.Basic

namespace JavaStructure

variable {rename : Nat → Nat}

/-- An origin under other node ids. -/
def Origin.renamed (rename : Nat → Nat) : Origin → Origin
  | .node id => .node (rename id)
  | .synthesized => .synthesized

theorem Origin.renamed_injective (keepsApart : Function.Injective rename) :
    Function.Injective (Origin.renamed rename) := by
  intro first second same
  cases first <;> cases second <;> simp_all [Origin.renamed, keepsApart.eq_iff]

/-- A method whose origin is under another node id. -/
def Method.renamed (rename : Nat → Nat) (method : Method) : Method :=
  { method with origin := method.origin.renamed rename }

namespace Model

/-- A model under other node ids. -/
def renamed (rename : Nat → Nat) (model : Model) : Model :=
  { model with methods := model.methods.map (Method.renamed rename) }

theorem intern_renamed (rename : Nat → Nat) (model : Model) (name : String) :
    (model.renamed rename).intern name =
      ((model.intern name).1, (model.intern name).2.renamed rename) := by
  have same : (model.renamed rename).lookup name = model.lookup name := rfl
  rw [intern, intern, same]
  split <;> rfl

theorem define_renamed (rename : Nat → Nat) (model : Model) (name : String) :
    (model.renamed rename).define name =
      ((model.define name).1, (model.define name).2.renamed rename) := by
  rw [define, intern_renamed]
  rfl

theorem addMethod_renamed (keepsApart : Function.Injective rename) (model : Model)
    (owner : TypeId) (name : String) (parameters : List Slot) (origin : Origin) :
    (model.renamed rename).addMethod owner name parameters (origin.renamed rename) =
      ((model.addMethod owner name parameters origin).1,
        (model.addMethod owner name parameters origin).2.renamed rename) := by
  have tested : (isMethodFor owner name (parameters.map (·.type)) (origin.renamed rename)) ∘
      Method.renamed rename = isMethodFor owner name (parameters.map (·.type)) origin := by
    funext method
    simp [isMethodFor, Method.renamed, (Origin.renamed_injective keepsApart).eq_iff,
      Bool.beq_eq_decide_eq]
  have found : (model.renamed rename).methods.findIdx?
      (isMethodFor owner name (parameters.map (·.type)) (origin.renamed rename)) =
        model.methods.findIdx? (isMethodFor owner name (parameters.map (·.type)) origin) := by
    rw [renamed, List.findIdx?_map, tested]
  rw [addMethod, addMethod, found]
  split
  · rfl
  · simp [renamed, modifyType, Method.renamed]

theorem findMethod_renamed (rename : Nat → Nat) (model : Model) (owner : TypeId) (name : String) :
    (model.renamed rename).findMethod owner name = model.findMethod owner name := by
  have ids : (model.renamed rename).methodIds owner = model.methodIds owner := rfl
  rw [findMethod, findMethod, ids]
  refine congrArg (List.find? · (model.methodIds owner)) (funext fun id => ?_)
  simp only [renamed, List.getElem?_map]
  cases model.methods[id]? <;> rfl

theorem constructor_renamed (keepsApart : Function.Injective rename) (model : Model)
    (owner : TypeId) :
    (model.renamed rename).constructor owner =
      ((model.constructor owner).1, (model.constructor owner).2.renamed rename) := by
  rw [constructor, constructor, findMethod_renamed]
  split
  · rfl
  · exact addMethod_renamed keepsApart model owner _ [] .synthesized

theorem addStatement_renamed (rename : Nat → Nat) (model : Model) (id : MethodId)
    (statement : Statement) :
    (model.renamed rename).addStatement id statement =
      (model.addStatement id statement).renamed rename := by
  have methods : (model.methods.map (Method.renamed rename)).modify id
      (fun method => { method with statements := method.statements ++ [statement] }) =
        (model.methods.modify id fun method =>
          { method with statements := method.statements ++ [statement] }).map
            (Method.renamed rename) := by
    refine List.ext_getElem? fun position => ?_
    simp only [List.getElem?_modify, List.getElem?_map]
    split <;> cases model.methods[position]? <;> rfl
  simp only [addStatement, modifyMethod, renamed, methods]

theorem methodsOf_renamed (rename : Nat → Nat) (model : Model) (owner : TypeId) :
    (model.renamed rename).methodsOf owner =
      (model.methodsOf owner).map (Method.renamed rename) := by
  rw [methodsOf, methodsOf, List.map_filterMap]
  simp only [renamed, List.getElem?_map]
  rfl

end Model

namespace Interchange

theorem elementsFrom_renamed (rename : Nat → Nat) (model : Model) (next : Nat) (id : TypeId)
    (entries : List TypeEntry) :
    elementsFrom (model.renamed rename) next id entries = elementsFrom model next id entries := by
  have element (id : TypeId) (entry : TypeEntry) :
      typeElement (model.renamed rename) id entry = typeElement model id entry := by
    rw [typeElement, typeElement, Model.methodsOf_renamed, List.map_map]
    rfl
  induction entries generalizing next id with
  | nil => rfl
  | cons entry rest ih => rw [elementsFrom, elementsFrom, element, ih]

/-- The document does not show node ids. -/
theorem renderModel_renamed (rename : Nat → Nat) (model : Model) :
    renderModel (model.renamed rename) = renderModel model := by
  have elements : elementsFrom (model.renamed rename) firstRelationId 0
      (model.renamed rename).types = elementsFrom model firstRelationId 0 model.types :=
    elementsFrom_renamed rename model firstRelationId 0 model.types
  rw [renderModel, renderModel, Document.ofModel, Document.ofModel, elements]
  rfl

end Interchange

end JavaStructure
