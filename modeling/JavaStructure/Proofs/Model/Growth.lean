/-
# How a model grows

Building only ever adds to a model: types and methods keep their positions,
their names and their headers, and a method's statements are only appended to.
One lemma for each operation says what it adds. The order of the statements is
the subject of other modules; this one says which operations touch them.
-/

import JavaStructure.Model.Basic

namespace JavaStructure

/-- What identifies a method: everything but its statements. -/
structure MethodHeader where
  owner : TypeId
  name : String
  origin : Origin
  parameters : List Slot

/-- The header of a method. -/
def Method.header (method : Method) : MethodHeader :=
  { owner := method.owner
    name := method.name
    origin := method.origin
    parameters := method.parameters }

/-- The node of a declared method. -/
def Origin.node? : Origin → Option Nat
  | .node id => some id
  | .synthesized => none

/-- What is known of a module before any of its imports. -/
def ModuleInfo.withoutImports (moduleInfo : ModuleInfo) : ModuleInfo :=
  { moduleInfo with imports := [] }

namespace Model

/-- The nodes that the model holds a method for, in the order of the methods. -/
def declaredNodes (model : Model) : List Nat :=
  model.methods.filterMap (·.origin.node?)

/-- The statements of a method. A method that does not exist has none. -/
def statementsOf (model : Model) (id : MethodId) : List Statement :=
  match model.methods[id]? with
  | some method => method.statements
  | none => []

/-- The later of two models keeps the types and methods of the earlier one at
their positions. It says nothing about statements. -/
structure Grows (before after : Model) : Prop where
  moduleInfo : after.moduleInfo.withoutImports = before.moduleInfo.withoutImports
  typeNames : before.types.map (·.name) <+: after.types.map (·.name)
  headers : before.methods.map (·.header) <+: after.methods.map (·.header)

/-- A model gets new types, and new methods without statements. -/
structure Registers (before after : Model) : Prop where
  moduleInfo : after.moduleInfo.withoutImports = before.moduleInfo.withoutImports
  typeNames : before.types.map (·.name) <+: after.types.map (·.name)
  methods : ∃ added, after.methods = before.methods ++ added ∧
    ∀ method ∈ added, method.statements = []

/-- A model registers what is mentioned: there is no new declaration either. -/
structure Mentions (before after : Model) : Prop extends Registers before after where
  declaredNodes : after.declaredNodes = before.declaredNodes

variable {model before middle after : Model}

namespace Grows

theorem refl (model : Model) : Grows model model :=
  ⟨rfl, List.prefix_rfl, List.prefix_rfl⟩

theorem trans (first : Grows before middle) (second : Grows middle after) :
    Grows before after :=
  ⟨second.moduleInfo.trans first.moduleInfo, first.typeNames.trans second.typeNames,
    first.headers.trans second.headers⟩

theorem packageName (grows : Grows before after) :
    after.moduleInfo.packageName = before.moduleInfo.packageName :=
  (congrArg ModuleInfo.packageName grows.moduleInfo :)

/-- The number of methods never falls. -/
theorem length_le (grows : Grows before after) :
    before.methods.length ≤ after.methods.length := by
  simpa using grows.headers.length_le

end Grows

namespace Registers

theorem refl (model : Model) : Registers model model :=
  ⟨rfl, List.prefix_rfl, [], by simp, by simp⟩

theorem trans (first : Registers before middle) (second : Registers middle after) :
    Registers before after := by
  refine ⟨second.moduleInfo.trans first.moduleInfo, first.typeNames.trans second.typeNames, ?_⟩
  obtain ⟨front, appendedFront, emptyFront⟩ := first.methods
  obtain ⟨back, appendedBack, emptyBack⟩ := second.methods
  refine ⟨front ++ back, ?_, List.forall_mem_append.mpr ⟨emptyFront, emptyBack⟩⟩
  rw [appendedBack, appendedFront, List.append_assoc]

theorem toGrows (registers : Registers before after) : Grows before after := by
  refine ⟨registers.moduleInfo, registers.typeNames, ?_⟩
  obtain ⟨added, appended, _⟩ := registers.methods
  simp [appended]

theorem packageName (registers : Registers before after) :
    after.moduleInfo.packageName = before.moduleInfo.packageName :=
  registers.toGrows.packageName

/-- A new method has no statements, so it is not told apart from a missing one. -/
theorem statements (registers : Registers before after) (id : MethodId) :
    after.statementsOf id = before.statementsOf id := by
  obtain ⟨added, appended, empty⟩ := registers.methods
  simp only [statementsOf, appended]
  by_cases inside : id < before.methods.length
  · rw [List.getElem?_append_left inside]
  · have outside : before.methods.length ≤ id := Nat.le_of_not_lt inside
    rw [List.getElem?_append_right outside, List.getElem?_eq_none outside]
    split
    · next method found => exact empty method (List.mem_of_getElem? found)
    · rfl

end Registers

namespace Mentions

theorem refl (model : Model) : Mentions model model :=
  ⟨Registers.refl model, rfl⟩

theorem trans (first : Mentions before middle) (second : Mentions middle after) :
    Mentions before after :=
  ⟨first.toRegisters.trans second.toRegisters, second.declaredNodes.trans first.declaredNodes⟩

/-- Statements and declarations are read off the methods alone. -/
theorem of_methods_eq
    (moduleInfo : after.moduleInfo.withoutImports = before.moduleInfo.withoutImports)
    (typeNames : before.types.map (·.name) <+: after.types.map (·.name))
    (methods : after.methods = before.methods) : Mentions before after where
  moduleInfo := moduleInfo
  typeNames := typeNames
  methods := ⟨[], by simp [methods], by simp⟩
  declaredNodes := by simp only [Model.declaredNodes, methods]

end Mentions

/-- A change of one element that keeps what is read off it keeps the list of what
is read off all. -/
theorem map_modify_of_eq {α β : Type} (read : α → β) {change : α → α}
    (keeps : ∀ element, read (change element) = read element) (elements : List α)
    (position : Nat) : (elements.modify position change).map read = elements.map read := by
  apply List.ext_getElem?
  intro other
  rw [List.getElem?_map, List.getElem?_modify, List.getElem?_map]
  cases elements[other]? with
  | none => rfl
  | some element => by_cases same : position = other <;> simp [same, keeps]

theorem modifyType_mentions (model : Model) (id : TypeId) {change : TypeEntry → TypeEntry}
    (keepsName : ∀ entry, (change entry).name = entry.name) :
    Mentions model (model.modifyType id change) := by
  apply Mentions.of_methods_eq
  · rfl
  · have names := map_modify_of_eq TypeEntry.name keepsName model.types id
    exact ⟨[], (List.append_nil _).trans names.symm⟩
  · rfl

theorem intern_mentions (model : Model) (name : String) :
    Mentions model (model.intern name).2 := by
  rw [intern]
  split
  · exact Mentions.refl model
  · apply Mentions.of_methods_eq
    · rfl
    · simp
    · rfl

theorem define_mentions (model : Model) (name : String) :
    Mentions model (model.define name).2 :=
  (intern_mentions model name).trans (modifyType_mentions _ _ fun _ => rfl)

theorem addRelation_mentions (model : Model) (id : TypeId) (relation : Relation) :
    Mentions model (model.addRelation id relation) := by
  apply modifyType_mentions
  intro entry
  split <;> rfl

theorem addMember_mentions (model : Model) (id : TypeId) (slot : Slot) :
    Mentions model (model.addMember id slot) := by
  apply modifyType_mentions
  intro entry
  split <;> rfl

theorem addImport_mentions (model : Model) (declaration : String) :
    Mentions model (model.addImport declaration) :=
  Mentions.of_methods_eq rfl List.prefix_rfl rfl

theorem addMethod_registers (model : Model) (owner : TypeId) (name : String)
    (parameters : List Slot) (origin : Origin) :
    Registers model (model.addMethod owner name parameters origin).2 := by
  rw [addMethod]
  split
  · exact Registers.refl model
  · refine Registers.trans ?_ (Mentions.toRegisters (modifyType_mentions _ owner fun _ => rfl))
    refine ⟨rfl, List.prefix_rfl, _, rfl, ?_⟩
    simp

/-- A synthesized method stands for no declaration. -/
theorem addMethod_mentions (model : Model) (owner : TypeId) (name : String)
    (parameters : List Slot) :
    Mentions model (model.addMethod owner name parameters .synthesized).2 := by
  refine ⟨addMethod_registers .., ?_⟩
  rw [addMethod]
  split
  · rfl
  · simp [declaredNodes, modifyType, Origin.node?]

theorem constructor_mentions (model : Model) (owner : TypeId) :
    Mentions model (model.constructor owner).2 := by
  rw [constructor]
  split
  · exact Mentions.refl model
  · exact addMethod_mentions ..

theorem methods_intern (model : Model) (name : String) :
    (model.intern name).2.methods = model.methods := by
  rw [intern]
  split <;> rfl

@[simp]
theorem moduleInfo_intern (model : Model) (name : String) :
    (model.intern name).2.moduleInfo = model.moduleInfo := by
  rw [intern]
  split <;> rfl

@[simp]
theorem moduleInfo_define (model : Model) (name : String) :
    (model.define name).2.moduleInfo = model.moduleInfo :=
  moduleInfo_intern model name

@[simp]
theorem moduleInfo_addMethod (model : Model) (owner : TypeId) (name : String)
    (parameters : List Slot) (origin : Origin) :
    (model.addMethod owner name parameters origin).2.moduleInfo = model.moduleInfo := by
  rw [addMethod]
  split <;> rfl

@[simp]
theorem moduleInfo_constructor (model : Model) (owner : TypeId) :
    (model.constructor owner).2.moduleInfo = model.moduleInfo := by
  rw [constructor]
  split
  · rfl
  · exact moduleInfo_addMethod ..

/-- A node without a method gets a new one. -/
theorem addMethod_of_not_mem {node : Nat} (fresh : node ∉ model.declaredNodes) (owner : TypeId)
    (name : String) (parameters : List Slot) :
    (model.addMethod owner name parameters (.node node)).1 = model.methods.length ∧
      (model.addMethod owner name parameters (.node node)).2.methods =
        model.methods ++ [{ owner, name, origin := .node node, parameters }] := by
  have missing : model.methods.findIdx?
      (isMethodFor owner name (parameters.map (·.type)) (.node node)) = none := by
    rw [List.findIdx?_eq_none_iff]
    intro method member
    have other : method.origin ≠ .node node := by
      intro same
      exact fresh (List.mem_filterMap.mpr ⟨method, member, by rw [same]; rfl⟩)
    simp [isMethodFor, other]
  rw [addMethod]
  rw [missing]
  exact ⟨rfl, rfl⟩

/-- The method that a declaration gets exists. -/
theorem addMethod_lt (model : Model) (owner : TypeId) (name : String)
    (parameters : List Slot) (origin : Origin) :
    (model.addMethod owner name parameters origin).1 <
      (model.addMethod owner name parameters origin).2.methods.length := by
  rw [addMethod]
  split
  case h_1 id found => exact (List.findIdx?_eq_some_iff_findIdx_eq.mp found).1
  case h_2 => simp [modifyType]

theorem addStatement_grows (model : Model) (id : MethodId) (statement : Statement) :
    Grows model (model.addStatement id statement) := by
  refine ⟨rfl, List.prefix_rfl, ?_⟩
  have headers : (model.addStatement id statement).methods.map (·.header) =
      model.methods.map (·.header) := by
    refine map_modify_of_eq Method.header ?_ model.methods id
    intro method
    rfl
  exact ⟨[], (List.append_nil _).trans headers.symm⟩

/-- A statement is appended to the one method it is added to. -/
theorem statementsOf_addStatement {id : MethodId} (present : id < model.methods.length)
    (statement : Statement) (other : MethodId) :
    (model.addStatement id statement).statementsOf other =
      model.statementsOf other ++ if id = other then [statement] else [] := by
  simp only [statementsOf, addStatement, modifyMethod, List.getElem?_modify]
  by_cases same : id = other
  · subst same
    simp [List.getElem?_eq_getElem present]
  · cases model.methods[other]? <;> simp [same]

end Model

end JavaStructure
