/-
# The types that a module declares

A model holds declared types and types that are only mentioned. The declared ones are
known by their names; only defining a name adds to them.
-/

import JavaStructure.Proofs.Model.Closure
import JavaStructure.Proofs.Model.Entries

namespace JavaStructure

namespace Model

variable {model : Model} {name : String}

/-- The names of the types that the module declares. -/
def definedNames (model : Model) : List String :=
  (model.types.filter (·.moduleDefined)).map (·.name)

theorem mem_definedNames :
    name ∈ model.definedNames ↔
      ∃ (id : TypeId) (entry : TypeEntry), model.types[id]? = some entry ∧
        entry.moduleDefined = true ∧ entry.name = name := by
  simp only [definedNames, List.mem_map, List.mem_filter]
  constructor
  · rintro ⟨entry, ⟨inside, defined⟩, named⟩
    obtain ⟨id, found⟩ := List.mem_iff_getElem?.mp inside
    exact ⟨id, entry, found, defined, named⟩
  · rintro ⟨id, entry, found, defined, named⟩
    exact ⟨entry, ⟨List.mem_of_getElem? found, defined⟩, named⟩

/-- Only the names of the types and whether they are declared count. -/
theorem definedNames_eq_map (model : Model) :
    model.definedNames =
      ((model.types.map fun entry => (entry.moduleDefined, entry.name)).filter (·.1)).map
        (·.2) := by
  rw [definedNames, List.filter_map, List.map_map]
  rfl

/-- A change that neither renames a type nor declares it. -/
theorem definedNames_modifyType (model : Model) (id : TypeId) {change : TypeEntry → TypeEntry}
    (name : ∀ entry, (change entry).name = entry.name)
    (defined : ∀ entry, (change entry).moduleDefined = entry.moduleDefined) :
    (model.modifyType id change).definedNames = model.definedNames := by
  have same : (model.modifyType id change).types.map
      (fun entry => (entry.moduleDefined, entry.name)) =
        model.types.map fun entry => (entry.moduleDefined, entry.name) := by
    refine map_modify_of_eq (fun entry : TypeEntry => (entry.moduleDefined, entry.name)) ?_
      model.types id
    intro entry
    rw [name, defined]
  rw [definedNames_eq_map, same, ← definedNames_eq_map]

/-- A type that is only mentioned is not declared. -/
@[simp]
theorem definedNames_intern (model : Model) (name : String) :
    (model.intern name).2.definedNames = model.definedNames := by
  rw [intern]
  split
  · rfl
  · simp [definedNames]

@[simp]
theorem definedNames_addMethod (model : Model) (owner : TypeId) (name : String)
    (parameters : List Slot) (origin : Origin) :
    (model.addMethod owner name parameters origin).2.definedNames = model.definedNames := by
  rw [addMethod]
  split
  · rfl
  · exact definedNames_modifyType { model with methods := model.methods ++ [_] } owner
      (fun _ => rfl) fun _ => rfl

@[simp]
theorem definedNames_constructor (model : Model) (owner : TypeId) :
    (model.constructor owner).2.definedNames = model.definedNames := by
  rw [constructor]
  split
  · rfl
  · exact definedNames_addMethod ..

@[simp]
theorem definedNames_addRelation (model : Model) (type : TypeId) (relation : Relation) :
    (model.addRelation type relation).definedNames = model.definedNames := by
  apply definedNames_modifyType
  · intro entry
    split <;> rfl
  · intro entry
    split <;> rfl

@[simp]
theorem definedNames_addMember (model : Model) (type : TypeId) (slot : Slot) :
    (model.addMember type slot).definedNames = model.definedNames := by
  apply definedNames_modifyType
  · intro entry
    split <;> rfl
  · intro entry
    split <;> rfl

@[simp]
theorem definedNames_addStatement (model : Model) (method : MethodId) (statement : Statement) :
    (model.addStatement method statement).definedNames = model.definedNames := rfl

@[simp]
theorem definedNames_addImport (model : Model) (declaration : String) :
    (model.addImport declaration).definedNames = model.definedNames := rfl

/-- Defining a name registers it and marks its type. -/
theorem define_eq (model : Model) (name : String) :
    model.define name = ((model.intern name).1,
      (model.intern name).2.modifyType (model.intern name).1
        fun entry => { entry with moduleDefined := true }) := rfl

/-- A type is defined under its name. -/
theorem nameOf_define (model : Model) (name : String) :
    (model.define name).2.nameOf (model.define name).1 = some name := by
  rw [define_eq]
  refine Grows.nameOf (Registers.toGrows (Mentions.toRegisters ?_)) (nameOf_intern model name)
  apply modifyType_mentions
  exact fun _ => rfl

/-- Defining a name declares it and nothing else. -/
theorem mem_definedNames_define (model : Model) (defined name : String) :
    name ∈ (model.define defined).2.definedNames ↔
      name ∈ model.definedNames ∨ name = defined := by
  rw [← definedNames_intern model defined, mem_definedNames, mem_definedNames]
  obtain ⟨entry, found, rfl⟩ := Option.map_eq_some_iff.mp (nameOf_intern model defined)
  have marked (position : TypeId) : (model.define entry.name).2.types[position]? =
      (model.intern entry.name).2.types[position]?.map
        (if (model.intern entry.name).1 = position then
          fun entry => { entry with moduleDefined := true } else fun entry => entry) :=
    getElem?_modifyType ..
  constructor
  · rintro ⟨position, other, foundToo, declared, rfl⟩
    rw [marked] at foundToo
    by_cases same : (model.intern entry.name).1 = position
    · right
      rw [if_pos same, ← same, found] at foundToo
      obtain rfl := Option.some.inj foundToo
      rfl
    · left
      rw [if_neg same, Option.map_id'] at foundToo
      exact ⟨position, other, foundToo, declared, rfl⟩
  · rintro (⟨position, other, before, declared, rfl⟩ | rfl)
    · refine ⟨position, _, (marked position).trans (congrArg (Option.map _) before), ?_⟩
      split
      · exact ⟨rfl, rfl⟩
      · exact ⟨declared, rfl⟩
    · refine ⟨_, _, (marked _).trans (congrArg (Option.map _) found), ?_⟩
      rw [if_pos rfl]
      exact ⟨rfl, rfl⟩

end Model

end JavaStructure
