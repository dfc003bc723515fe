/-
# What any sequence of operations keeps

Types and methods are told apart by what they say: a type by its name, a method by its
owner, name, parameter types and origin. Here a model is changed by any operations in any
order, as long as each finds its owner. `Orderly` is what every operation keeps; `perform`
carries it, and the history of names, declarations and constructors, through a sequence.
-/

import JavaStructure.Model.Indexed
import JavaStructure.Proofs.Model.Closure
import JavaStructure.Proofs.Model.Entries
import Mathlib.Data.List.Nodup

namespace JavaStructure

/-- A constructor that no declaration stands for. -/
def Method.IsSynthesized (method : Method) : Prop :=
  method.name = Syntax.constructorName ∧ method.origin = .synthesized

namespace Model

/-- The operations on a model. -/
inductive Operation where
  | intern (name : String)
  | define (name : String)
  | lookup (name : String)
  | addRelation (type : TypeId) (relation : Relation)
  | addMember (type : TypeId) (slot : Slot)
  | addMethod (owner : TypeId) (name : String) (parameters : List Slot) (origin : Origin)
  | findMethod (owner : TypeId) (name : String)
  | constructor (owner : TypeId)
  | addStatement (method : MethodId) (statement : Statement)
  | addImport (declaration : String)
  deriving DecidableEq

/-- What an operation answers. -/
inductive Answer where
  | position (id : Nat)
  | found (id : Option Nat)
  | added (isNew : Bool)
  | done
  deriving DecidableEq

namespace Operation

/-- What an operation answers on a model. -/
def answer (model : Model) : Operation → Answer
  | intern name => .position (model.intern name).1
  | define name => .position (model.define name).1
  | lookup name => .found (model.lookup name)
  | addRelation type relation => .added (!model.hasRelation type relation)
  | addMethod owner name parameters origin =>
      .position (model.addMethod owner name parameters origin).1
  | findMethod owner name => .found (model.findMethod owner name)
  | constructor owner => .position (model.constructor owner).1
  | addMember _ _ | addStatement _ _ | addImport _ => .done

/-- The model after an operation. -/
def apply (model : Model) : Operation → Model
  | intern name => (model.intern name).2
  | define name => (model.define name).2
  | addRelation type relation => model.addRelation type relation
  | addMember type slot => model.addMember type slot
  | addMethod owner name parameters origin => (model.addMethod owner name parameters origin).2
  | constructor owner => (model.constructor owner).2
  | addStatement method statement => model.addStatement method statement
  | addImport declaration => model.addImport declaration
  | lookup _ | findMethod _ _ => model

/-- Whether the type or the method that an operation is for exists. What it refers to
beyond that is not asked for. -/
def FindsOwner (model : Model) : Operation → Prop
  | addRelation type _ | addMember type _ => type < model.types.length
  | addMethod owner _ _ _ | findMethod owner _ | constructor owner => owner < model.types.length
  | addStatement method _ => method < model.methods.length
  | intern _ | define _ | lookup _ | addImport _ => True

instance (model : Model) : (operation : Operation) → Decidable (operation.FindsOwner model)
  | addRelation _ _ | addMember _ _ | addMethod _ _ _ _ | findMethod _ _ | constructor _
  | addStatement _ _ => Nat.decLt _ _
  | intern _ | define _ | lookup _ | addImport _ => instDecidableTrue

end Operation

/-- The model after some operations. -/
def perform (model : Model) (operations : List Operation) : Model :=
  operations.foldl Operation.apply model

/-- What some operations answer, one after the other. -/
def answers (model : Model) : List Operation → List Answer
  | [] => []
  | operation :: rest => operation.answer model :: (operation.apply model).answers rest

/-- Each operation finds its owner in the model that it is applied to. -/
def FindOwners (model : Model) : List Operation → Prop
  | [] => True
  | operation :: rest => operation.FindsOwner model ∧ FindOwners (operation.apply model) rest

instance decidableFindOwners (model : Model) :
    (operations : List Operation) → Decidable (model.FindOwners operations)
  | [] => instDecidableTrue
  | operation :: rest =>
    @instDecidableAnd _ _ _ (decidableFindOwners (operation.apply model) rest)

variable {model : Model} {operation : Operation} {operations : List Operation}
variable {id type owner : TypeId} {name : String}

@[simp]
theorem perform_nil (model : Model) : model.perform [] = model := rfl

@[simp]
theorem perform_cons (model : Model) (operation : Operation) (rest : List Operation) :
    model.perform (operation :: rest) = (operation.apply model).perform rest := rfl

/-- Types have different names, each type lists exactly its own methods, and nothing is
registered twice. -/
structure Orderly (model : Model) : Prop where
  names : (model.types.map (·.name)).Nodup
  listed : ∀ owner, model.methodIds owner = model.idsOwnedBy owner
  keys : (model.methods.map Method.key).Nodup
  relations : ∀ entry ∈ model.types, entry.relations.Nodup
  members : ∀ entry ∈ model.types, entry.members.Nodup

/-- A model to which nothing was added. -/
theorem orderly_empty (moduleInfo : ModuleInfo) : Orderly { moduleInfo } where
  names := List.nodup_nil
  listed := fun _ => rfl
  keys := List.nodup_nil
  relations := by rintro entry ⟨⟩
  members := by rintro entry ⟨⟩

theorem intern_orderly (orderly : model.Orderly) (name : String) :
    (model.intern name).2.Orderly := by
  rw [intern]
  split
  · exact orderly
  · next absent =>
      have added (entry : TypeEntry) (inside : entry ∈ model.types ++ [({ name } : TypeEntry)]) :
          entry ∈ model.types ∨ entry = ({ name } : TypeEntry) := by
        simpa using inside
      refine ⟨?_, fun owner => ?_, orderly.keys, fun entry inside => ?_, fun entry inside => ?_⟩
      · rw [List.map_append, List.map_singleton, ← List.concat_eq_append]
        exact orderly.names.concat (lookup_eq_none_iff.mp absent)
      · exact (methodIds_append_new model rfl owner).trans (orderly.listed owner)
      · rcases added entry inside with old | rfl
        · exact orderly.relations entry old
        · exact List.nodup_nil
      · rcases added entry inside with old | rfl
        · exact orderly.members entry old
        · exact List.nodup_nil

/-- A change of one entry that renames nothing, lists no method and registers nothing
twice. -/
theorem Orderly.modifyType (orderly : model.Orderly) (id : TypeId)
    {change : TypeEntry → TypeEntry} (name : ∀ entry, (change entry).name = entry.name)
    (methods : ∀ entry, (change entry).methods = entry.methods)
    (relations : ∀ entry, entry.relations.Nodup → (change entry).relations.Nodup)
    (members : ∀ entry, entry.members.Nodup → (change entry).members.Nodup) :
    (model.modifyType id change).Orderly := by
  refine ⟨?_, fun owner => ?_, orderly.keys, fun entry inside => ?_, fun entry inside => ?_⟩
  · have names := map_modify_of_eq TypeEntry.name name model.types id
    exact names ▸ orderly.names
  · exact (methodIds_modifyType model id methods owner).trans (orderly.listed owner)
  · rcases mem_modifyType inside with old | ⟨before, old, rfl⟩
    · exact orderly.relations entry old
    · exact relations before (orderly.relations before old)
  · rcases mem_modifyType inside with old | ⟨before, old, rfl⟩
    · exact orderly.members entry old
    · exact members before (orderly.members before old)

theorem define_orderly (orderly : model.Orderly) (name : String) :
    (model.define name).2.Orderly :=
  (intern_orderly orderly name).modifyType _ (fun _ => rfl) (fun _ => rfl) (fun _ kept => kept)
    (fun _ kept => kept)

theorem addRelation_orderly (orderly : model.Orderly) (type : TypeId) (relation : Relation) :
    (model.addRelation type relation).Orderly := by
  apply orderly.modifyType
  · intro entry
    split <;> rfl
  · intro entry
    split <;> rfl
  · intro entry distinct
    split
    · exact distinct
    · next absent =>
        rw [← List.concat_eq_append]
        exact distinct.concat (by simpa using absent)
  · intro entry distinct
    split <;> exact distinct

theorem addMember_orderly (orderly : model.Orderly) (type : TypeId) (slot : Slot) :
    (model.addMember type slot).Orderly := by
  apply orderly.modifyType
  · intro entry
    split <;> rfl
  · intro entry
    split <;> rfl
  · intro entry distinct
    split <;> exact distinct
  · intro entry distinct
    split
    · exact distinct
    · next absent =>
        rw [← List.concat_eq_append]
        exact distinct.concat (by simpa using absent)

/-- A method is the one for an owner, a name, parameter types and an origin if these are
its key. -/
theorem isMethodFor_iff {name : String} {parameterTypes : List TypeId} {origin : Origin}
    {method : Method} :
    isMethodFor owner name parameterTypes origin method = true ↔
      method.key = { owner, name, parameterTypes, origin } := by
  simp [isMethodFor, Method.key, and_assoc]

/-- A method with a new key is added at the end of the list of its owner. -/
theorem withMethod_orderly (orderly : model.Orderly) (method : Method)
    (owned : method.owner < model.types.length) (new : method.key ∉ model.methods.map Method.key) :
    (model.withMethod method).Orderly := by
  refine ⟨?_, fun owner => ?_, ?_, fun entry inside => ?_, fun entry inside => ?_⟩
  · have names : (model.withMethod method).types.map (·.name) = model.types.map (·.name) := by
      refine map_modify_of_eq TypeEntry.name ?_ model.types method.owner
      exact fun _ => rfl
    exact names ▸ orderly.names
  · rw [idsOwnedBy_withMethod, ← orderly.listed owner]
    exact methodIds_withMethod owned owner
  · have keys : (model.withMethod method).methods.map Method.key =
        (model.methods.map Method.key).concat method.key := by
      simp [withMethod, Model.modifyType]
    rw [keys]
    exact orderly.keys.concat new
  · rcases mem_modifyType inside with old | ⟨before, old, rfl⟩
    · exact orderly.relations entry old
    · exact orderly.relations before old
  · rcases mem_modifyType inside with old | ⟨before, old, rfl⟩
    · exact orderly.members entry old
    · exact orderly.members before old

theorem addMethod_orderly (orderly : model.Orderly) (owned : owner < model.types.length)
    (name : String) (parameters : List Slot) (origin : Origin) :
    (model.addMethod owner name parameters origin).2.Orderly := by
  rw [addMethod]
  split
  · exact orderly
  · next absent =>
      apply withMethod_orderly orderly { owner, name, origin, parameters } owned
      rw [List.mem_map]
      rintro ⟨method, inside, same⟩
      have missing := List.findIdx?_eq_none_iff.mp absent method inside
      rw [isMethodFor_iff.mpr same] at missing
      cases missing

theorem constructor_orderly (orderly : model.Orderly) (owned : owner < model.types.length) :
    (model.constructor owner).2.Orderly := by
  rw [constructor]
  split
  · exact orderly
  · exact addMethod_orderly orderly owned ..

theorem addStatement_orderly (orderly : model.Orderly) (method : MethodId)
    (statement : Statement) : (model.addStatement method statement).Orderly := by
  refine ⟨orderly.names, fun owner => ?_, ?_, orderly.relations, orderly.members⟩
  · exact (orderly.listed owner).trans (idsOwnedBy_addStatement model method statement owner).symm
  · have keys : (model.addStatement method statement).methods.map Method.key =
        model.methods.map Method.key := by
      refine map_modify_of_eq Method.key ?_ model.methods method
      exact fun _ => rfl
    exact keys ▸ orderly.keys

/-- Every operation that finds its owner keeps a model orderly. -/
theorem Operation.apply_orderly (orderly : model.Orderly) (owned : operation.FindsOwner model) :
    (operation.apply model).Orderly := by
  cases operation with
  | intern name => exact intern_orderly orderly name
  | define name => exact define_orderly orderly name
  | addRelation type relation => exact addRelation_orderly orderly type relation
  | addMember type slot => exact addMember_orderly orderly type slot
  | addMethod owner name parameters origin => exact addMethod_orderly orderly owned ..
  | constructor owner => exact constructor_orderly orderly owned
  | addStatement method statement => exact addStatement_orderly orderly method statement
  | lookup name | findMethod owner name => exact orderly
  | addImport declaration =>
      exact ⟨orderly.names, orderly.listed, orderly.keys, orderly.relations, orderly.members⟩

/-- So do operations one after the other. -/
theorem perform_orderly (orderly : model.Orderly) (owned : model.FindOwners operations) :
    (model.perform operations).Orderly := by
  induction operations generalizing model with
  | nil => exact orderly
  | cons operation rest ih => exact ih (operation.apply_orderly orderly owned.1) owned.2

end Model

end JavaStructure
