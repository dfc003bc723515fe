/-
# Models and their indexes

An index is in step with a list when it holds the position of each key, and of nothing
else. Then a search of the list and a look at the index come to the same, so every
operation on a model with indexes does to the lists, and answers, what the operation of
the same name does without them. What holds of the lists after any operations is carried
over from there; that the indexes stay in step is shown here, first of one operation and
then of any number.
-/

import JavaStructure.Proofs.Model.History

namespace JavaStructure

/-- An index holds the position of each key of a list, and of no other key. -/
def Indexes {κ : Type} [BEq κ] [Hashable κ] (index : Std.HashMap κ Nat) (keys : List κ) : Prop :=
  ∀ (key : κ) (id : Nat), index[key]? = some id ↔ keys[id]? = some key

namespace Indexes

variable {κ : Type} [BEq κ] [Hashable κ] {index : Std.HashMap κ Nat}
variable {keys : List κ} {key : κ}

/-- Two positions of one key would be two entries of the index for it. -/
theorem nodup (indexes : Indexes index keys) : keys.Nodup := by
  rw [List.nodup_iff_getElem?_ne_getElem?]
  intro first second before inside same
  have found : keys[first]? = some (keys.get ⟨first, Nat.lt_trans before inside⟩) :=
    List.getElem?_eq_getElem _
  have here := (indexes _ first).mpr found
  have there := (indexes _ second).mpr (same ▸ found)
  exact Nat.ne_of_lt before (Option.some.inj (here.symm.trans there))

variable [LawfulBEq κ]

theorem empty : Indexes (∅ : Std.HashMap κ Nat) [] := by
  intro key id
  simp

/-- A key that the index does not hold is added to both. -/
theorem concat (indexes : Indexes index keys) (new : index[key]? = none) :
    Indexes (index.insert key keys.length) (keys ++ [key]) := by
  intro asked id
  rw [Std.HashMap.getElem?_insert, List.getElem?_append]
  by_cases same : key = asked
  · subst same
    have absent : ¬keys[id]? = some key := by
      rw [← indexes key id, new]
      exact nofun
    rw [if_pos BEq.rfl, Option.some.injEq]
    split
    · next inside => exact iff_of_false (Nat.ne_of_gt inside) absent
    · next outside => simp [List.getElem?_singleton]; omega
  · rw [if_neg (by simpa using same), indexes asked id]
    split
    · rfl
    · next outside =>
        have other : ([key] : List κ)[id - keys.length]? ≠ some asked := by
          intro found
          exact same (List.mem_singleton.mp (List.mem_of_getElem? found)).symm
        simp [List.getElem?_eq_none (Nat.le_of_not_lt outside), other]

/-- A search of the list finds what the index holds. -/
theorem findIdx?_eq (indexes : Indexes index keys) (key : κ) :
    keys.findIdx? (· == key) = index[key]? := by
  cases held : index[key]? with
  | none =>
      rw [List.findIdx?_eq_none_iff]
      intro other inside
      obtain ⟨id, found⟩ := List.mem_iff_getElem?.mp inside
      rw [beq_eq_false_iff_ne]
      rintro rfl
      rw [(indexes other id).mpr found] at held
      cases held
  | some id =>
      obtain ⟨inside, found⟩ := List.getElem?_eq_some_iff.mp ((indexes key id).mp held)
      rw [List.findIdx?_eq_some_iff_getElem]
      refine ⟨inside, beq_iff_eq.mpr found, fun earlier before same => ?_⟩
      have foundToo :=
        List.getElem?_eq_some_iff.mpr ⟨Nat.lt_trans before inside, beq_iff_eq.mp same⟩
      have held := ((indexes key earlier).mpr foundToo).symm.trans held
      exact Nat.ne_of_lt before (Option.some.inj held)

end Indexes

namespace IndexedModel

open Model

variable {registry : IndexedModel} {operation : Operation} {operations : List Operation}

/-- The index of the types holds their names, and the index of the methods their keys. -/
structure InStep (registry : IndexedModel) : Prop where
  types : Indexes registry.typeIndex (registry.types.map (·.name))
  methods : Indexes registry.methodIndex (registry.methods.map Method.key)

/-- A model to which nothing was added. -/
theorem inStep_empty (moduleInfo : ModuleInfo) : InStep { moduleInfo } where
  types := .empty
  methods := .empty

/-- A change of one entry that renames nothing. -/
theorem InStep.modifyType (inStep : registry.InStep) (id : TypeId)
    {change : TypeEntry → TypeEntry} (name : ∀ entry, (change entry).name = entry.name) :
    InStep { registry with toModel := registry.toModel.modifyType id change } where
  types := (map_modify_of_eq TypeEntry.name name registry.types id).symm ▸ inStep.types
  methods := inStep.methods

theorem intern_inStep (inStep : registry.InStep) (name : String) :
    (registry.intern name).2.InStep := by
  rw [intern]
  split
  · exact inStep
  · next new =>
      refine ⟨?_, inStep.methods⟩
      have both := inStep.types.concat new
      rw [List.length_map] at both
      simpa using both

theorem define_inStep (inStep : registry.InStep) (name : String) :
    (registry.define name).2.InStep :=
  (intern_inStep inStep name).modifyType _ fun _ => rfl

theorem addRelation_inStep (inStep : registry.InStep) (type : TypeId) (relation : Relation) :
    (registry.addRelation type relation).2.InStep := by
  refine inStep.modifyType type fun entry => ?_
  split <;> rfl

theorem addMember_inStep (inStep : registry.InStep) (type : TypeId) (slot : Slot) :
    (registry.addMember type slot).InStep := by
  refine inStep.modifyType type fun entry => ?_
  split <;> rfl

theorem addMethod_inStep (inStep : registry.InStep) (owner : TypeId) (name : String)
    (parameters : List Slot) (origin : Origin) :
    (registry.addMethod owner name parameters origin).2.InStep := by
  rw [addMethod]
  split
  · exact inStep
  · next new =>
      have both := inStep.methods.concat new
      rw [List.length_map] at both
      have added : InStep { registry with
          methods := registry.methods ++ [{ owner, name, origin, parameters }]
          methodIndex := registry.methodIndex.insert _ registry.methods.length } :=
        ⟨inStep.types, by simpa using both⟩
      exact added.modifyType owner fun _ => rfl

theorem constructor_inStep (inStep : registry.InStep) (owner : TypeId) :
    (registry.constructor owner).2.InStep := by
  rw [constructor]
  split
  · exact inStep
  · exact addMethod_inStep inStep ..

theorem addStatement_inStep (inStep : registry.InStep) (method : MethodId)
    (statement : Statement) : (registry.addStatement method statement).InStep := by
  let record (before : Method) : Method :=
    { before with statements := before.statements ++ [statement] }
  have same (before : Method) : (record before).key = before.key := rfl
  have keys := map_modify_of_eq Method.key same registry.methods method
  exact ⟨inStep.types, keys.symm ▸ inStep.methods⟩

/-- The index of the types finds what a search finds. -/
theorem InStep.lookup_eq (inStep : registry.InStep) (name : String) :
    registry.typeIndex[name]? = registry.toModel.lookup name := by
  rw [← inStep.types.findIdx?_eq, List.findIdx?_map]
  rfl

/-- So does the index of the methods. -/
theorem InStep.findIdx?_isMethodFor (inStep : registry.InStep) (owner : TypeId) (name : String)
    (parameterTypes : List TypeId) (origin : Origin) :
    registry.methodIndex[({ owner, name, parameterTypes, origin } : MethodKey)]? =
      registry.methods.findIdx? (isMethodFor owner name parameterTypes origin) := by
  rw [← inStep.methods.findIdx?_eq, List.findIdx?_map]
  congr 1
  funext method
  rw [Bool.eq_iff_iff, isMethodFor_iff]
  exact beq_iff_eq

/-- What remains of a result without the indexes. -/
def forget {α : Type} (result : α × IndexedModel) : α × Model :=
  (result.1, result.2.toModel)

theorem forget_intern (inStep : registry.InStep) (name : String) :
    forget (registry.intern name) = registry.toModel.intern name := by
  rw [intern, Model.intern, inStep.lookup_eq]
  cases registry.toModel.lookup name <;> rfl

theorem forget_define (inStep : registry.InStep) (name : String) :
    forget (registry.define name) = registry.toModel.define name := by
  rw [Model.define, ← forget_intern inStep]
  rfl

theorem forget_addMethod (inStep : registry.InStep) (owner : TypeId) (name : String)
    (parameters : List Slot) (origin : Origin) :
    forget (registry.addMethod owner name parameters origin) =
      registry.toModel.addMethod owner name parameters origin := by
  rw [addMethod, Model.addMethod, ← inStep.findIdx?_isMethodFor]
  dsimp only [Method.key]
  cases registry.methodIndex[({ owner, name, parameterTypes := parameters.map (·.type), origin } :
    MethodKey)]? <;> rfl

theorem forget_constructor (inStep : registry.InStep) (owner : TypeId) :
    forget (registry.constructor owner) = registry.toModel.constructor owner := by
  rw [constructor, Model.constructor]
  cases registry.toModel.findMethod owner Syntax.constructorName with
  | some id => rfl
  | none => exact forget_addMethod inStep ..

/-- What an operation answers, and the model with indexes after it. -/
def run (registry : IndexedModel) : Operation → Answer × IndexedModel
  | .intern name => (registry.intern name).map .position id
  | .define name => (registry.define name).map .position id
  | .lookup name => (.found (registry.lookup name), registry)
  | .addRelation type relation => (registry.addRelation type relation).map .added id
  | .addMember type slot => (.done, registry.addMember type slot)
  | .addMethod owner name parameters origin =>
      (registry.addMethod owner name parameters origin).map .position id
  | .findMethod owner name => (.found (registry.toModel.findMethod owner name), registry)
  | .constructor owner => (registry.constructor owner).map .position id
  | .addStatement method statement => (.done, registry.addStatement method statement)
  | .addImport declaration => (.done, registry.addImport declaration)

/-- Every operation keeps the indexes in step. -/
theorem run_inStep (inStep : registry.InStep) (operation : Operation) :
    (registry.run operation).2.InStep := by
  cases operation with
  | intern name => exact intern_inStep inStep name
  | define name => exact define_inStep inStep name
  | addRelation type relation => exact addRelation_inStep inStep type relation
  | addMember type slot => exact addMember_inStep inStep type slot
  | addMethod owner name parameters origin => exact addMethod_inStep inStep ..
  | constructor owner => exact constructor_inStep inStep owner
  | addStatement method statement => exact addStatement_inStep inStep method statement
  | lookup name | findMethod owner name => exact inStep
  | addImport declaration => exact ⟨inStep.types, inStep.methods⟩

/-- While the indexes are in step, every operation answers and does to the lists what it
does without them. -/
theorem forget_run (inStep : registry.InStep) (operation : Operation) :
    forget (registry.run operation) =
      (operation.answer registry.toModel, operation.apply registry.toModel) := by
  cases operation with
  | intern name => exact congrArg (Prod.map Answer.position id) (forget_intern inStep name)
  | define name => exact congrArg (Prod.map Answer.position id) (forget_define inStep name)
  | addMethod owner name parameters origin =>
      exact congrArg (Prod.map Answer.position id) (forget_addMethod inStep ..)
  | constructor owner =>
      exact congrArg (Prod.map Answer.position id) (forget_constructor inStep owner)
  | lookup name =>
      exact congrArg (fun id => (Answer.found id, registry.toModel)) (inStep.lookup_eq name)
  | addRelation | addMember | findMethod | addStatement | addImport => rfl

/-- The model with indexes after some operations. -/
def perform (registry : IndexedModel) (operations : List Operation) : IndexedModel :=
  operations.foldl (fun registry operation => (registry.run operation).2) registry

/-- What some operations answer, one after the other. -/
def answers (registry : IndexedModel) : List Operation → List Answer
  | [] => []
  | operation :: rest => (registry.run operation).1 :: (registry.run operation).2.answers rest

/-- Each operation finds its owner in the model that it is applied to. -/
def FindOwners (registry : IndexedModel) : List Operation → Prop
  | [] => True
  | operation :: rest =>
    operation.FindsOwner registry.toModel ∧ (registry.run operation).2.FindOwners rest

theorem perform_inStep (inStep : registry.InStep) (operations : List Operation) :
    (registry.perform operations).InStep := by
  induction operations generalizing registry with
  | nil => exact inStep
  | cons operation rest ih => exact ih (run_inStep inStep operation)

/-- Any operations leave the lists that they leave without indexes. -/
theorem toModel_perform (inStep : registry.InStep) (operations : List Operation) :
    (registry.perform operations).toModel = registry.toModel.perform operations := by
  induction operations generalizing registry with
  | nil => rfl
  | cons operation rest ih =>
      have next : (registry.run operation).2.toModel = operation.apply registry.toModel :=
        congrArg Prod.snd (forget_run inStep operation)
      rw [perform_cons, ← next]
      exact ih (run_inStep inStep operation)

theorem answers_eq (inStep : registry.InStep) (operations : List Operation) :
    registry.answers operations = registry.toModel.answers operations := by
  induction operations generalizing registry with
  | nil => rfl
  | cons operation rest ih =>
      obtain ⟨answer, next⟩ := Prod.mk.inj (forget_run inStep operation)
      rw [answers, Model.answers, ih (run_inStep inStep operation), answer, next]

theorem findOwners_iff (inStep : registry.InStep) :
    registry.FindOwners operations ↔ registry.toModel.FindOwners operations := by
  induction operations generalizing registry with
  | nil => exact Iff.rfl
  | cons operation rest ih =>
      have next : (registry.run operation).2.toModel = operation.apply registry.toModel :=
        congrArg Prod.snd (forget_run inStep operation)
      rw [FindOwners, Model.FindOwners, ih (run_inStep inStep operation), next]

/-- A model in which names and ids, owners and methods, and indexes and lists are in
step. -/
structure IsArena (registry : IndexedModel) : Prop extends registry.InStep where
  /-- Types have different names. -/
  names : (registry.types.map (·.name)).Nodup
  /-- A type is found under its name and under no other. -/
  found : ∀ name id, registry.lookup name = some id ↔ registry.nameOf id = some name
  /-- Registering the name of a type again leads to the type. -/
  again : ∀ name id, registry.nameOf id = some name →
    (registry.intern name).1 = id ∧ (registry.define name).1 = id
  /-- Registering a method again leads to the method, whatever its parameters are called. -/
  methodAgain : ∀ (id : MethodId) (method : Method), registry.methods[id]? = some method →
    ∀ parameters : List Slot, parameters.map (·.type) = method.parameters.map (·.type) →
      (registry.addMethod method.owner method.name parameters method.origin).1 = id
  /-- The owner of a method exists. -/
  owned : ∀ method ∈ registry.methods, method.owner < registry.types.length
  /-- A method is listed once by its owner, and not by any other type. -/
  listed : ∀ id type, (registry.methodIds type).count id =
    if registry.methods[id]?.map (·.owner) = some type then 1 else 0
  /-- Methods differ in their owners, names, parameter types or origins. -/
  keys : (registry.methods.map Method.key).Nodup
  /-- No type has a relation twice. -/
  relations : ∀ entry ∈ registry.types, entry.relations.Nodup
  /-- No type has a member twice. -/
  members : ∀ entry ∈ registry.types, entry.members.Nodup

/-- A type is found under its name. -/
theorem InStep.lookup_eq_some_iff (inStep : registry.InStep) (name : String) (id : TypeId) :
    registry.lookup name = some id ↔ registry.nameOf id = some name := by
  rw [lookup, inStep.types, List.getElem?_map]
  rfl

/-- Indexes in step find what is registered already. -/
theorem InStep.isArena (inStep : registry.InStep) (orderly : registry.Orderly)
    (owned : ∀ method ∈ registry.methods, method.owner < registry.types.length) :
    registry.IsArena where
  toInStep := inStep
  names := inStep.types.nodup
  found := inStep.lookup_eq_some_iff
  again := fun name id named => by
    have held : registry.typeIndex[name]? = some id := (inStep.lookup_eq_some_iff name id).mpr named
    rw [define, intern, held]
    exact ⟨rfl, rfl⟩
  methodAgain := fun id method found parameters same => by
    have key : ({ method with parameters := parameters, statements := [] } : Method).key =
        method.key := by
      simp [Method.key, same]
    have held : registry.methodIndex[method.key]? = some id := by
      rw [inStep.methods, List.getElem?_map, found]
      rfl
    rw [addMethod, key, held]
  owned := owned
  listed := fun id type => by
    have once : (registry.idsOwnedBy type).Nodup := List.nodup_range.filter _
    have owns : id ∈ registry.idsOwnedBy type ↔
        registry.methods[id]?.map (·.owner) = some type := by
      rw [mem_idsOwnedBy, Option.map_eq_some_iff]
    rw [orderly.listed, once.count, if_congr owns rfl rfl]
  keys := inStep.methods.nodup
  relations := orderly.relations
  members := orderly.members

/-- After any operations that find their owners, names and ids are in step, so are owners
and methods, and both indexes hold what the lists say: the answers and the lists are those
of the model that searches its lists. A type keeps its name from the operation on that
registers it, and is declared if and only if some operation defines its name. As long as
only the search for a constructor synthesizes one, a type has no two of them, and it had no
constructor at all when the search made one up. -/
theorem perform_history {moduleInfo : ModuleInfo} {operations : List Operation}
    (findOwners : FindOwners { moduleInfo } operations) :
    (perform { moduleInfo } operations).IsArena ∧
      ((perform { moduleInfo } operations).toModel = Model.perform { moduleInfo } operations ∧
        answers { moduleInfo } operations = Model.answers { moduleInfo } operations) ∧
      (∀ earlier later, operations = earlier ++ later → ∀ id name,
        (perform { moduleInfo } earlier).nameOf id = some name →
          (perform { moduleInfo } operations).nameOf id = some name) ∧
      (∀ earlier name later,
        (operations = earlier ++ .intern name :: later →
          (perform { moduleInfo } operations).nameOf
            ((perform { moduleInfo } earlier).intern name).1 = some name) ∧
        (operations = earlier ++ .define name :: later →
          (perform { moduleInfo } operations).nameOf
            ((perform { moduleInfo } earlier).define name).1 = some name)) ∧
      (∀ name, name ∈ (perform { moduleInfo } operations).definedNames ↔
        .define name ∈ operations) ∧
      (SynthesizeOnDemand operations →
        (∀ id method, (perform { moduleInfo } operations).methods[id]? = some method →
          method.IsSynthesized →
            (∀ other methodToo, (perform { moduleInfo } operations).methods[other]? =
                some methodToo → methodToo.IsSynthesized → methodToo.owner = method.owner →
              other = id) ∧
            ∃ earlier later, operations = earlier ++ .constructor method.owner :: later ∧
              id = (perform { moduleInfo } earlier).methods.length ∧
              ∀ before ∈ (perform { moduleInfo } earlier).methods,
                before.owner = method.owner → before.name ≠ Syntax.constructorName)) := by
  have start := inStep_empty moduleInfo
  have lists (operations : List Operation) :
      (perform { moduleInfo } operations).toModel = Model.perform { moduleInfo } operations :=
    toModel_perform start operations
  have owners : Model.FindOwners { moduleInfo } operations := (findOwners_iff start).mp findOwners
  have after (earlier later : List Operation) (split : operations = earlier ++ later) :
      (Model.perform { moduleInfo } earlier).Grows (Model.perform { moduleInfo } operations) := by
    rw [split, perform_append]
    exact perform_grows _ later
  refine ⟨(perform_inStep start operations).isArena ?_ ?_,
    ⟨lists operations, answers_eq start operations⟩,
    fun earlier later split id name named => ?_,
    fun earlier name later => ⟨fun split => ?_, fun split => ?_⟩, fun name => ?_,
    fun onDemand id method found synthesized => ?_⟩
  · rw [lists]
    exact perform_orderly (orderly_empty moduleInfo) owners
  · rw [lists]
    intro method inside
    exact perform_owned { moduleInfo } (by simp) owners method.header (List.mem_map_of_mem inside)
  · rw [lists] at named ⊢
    exact (after earlier later split).nameOf named
  · have sameId := congrArg Prod.fst (forget_intern (perform_inStep start earlier) name)
    have next := after (earlier ++ [.intern name]) later (by simpa using split)
    rw [perform_append] at next
    rw [lists, show ((perform { moduleInfo } earlier).intern name).1 = _ from sameId, lists]
    exact next.nameOf (nameOf_intern _ name)
  · have sameId := congrArg Prod.fst (forget_define (perform_inStep start earlier) name)
    have next := after (earlier ++ [.define name]) later (by simpa using split)
    rw [perform_append] at next
    rw [lists, show ((perform { moduleInfo } earlier).define name).1 = _ from sameId, lists]
    exact next.nameOf (nameOf_define _ name)
  · rw [lists, mem_definedNames_perform]
    exact or_iff_right (by simp [definedNames])
  · simp only [lists] at found ⊢
    exact perform_synthesized owners onDemand found synthesized

/-- A class with a superclass, a field, a method and a constructor that it is searched for
twice. The superclass is mentioned, asked for its constructor, and declared at last. -/
def subclassOperations : List Operation :=
  [.define "A", .intern "B", .addRelation 0 ⟨.extension, 1⟩, .addRelation 0 ⟨.extension, 1⟩,
    .addMember 0 ⟨"other", 1⟩, .addMember 0 ⟨"other", 1⟩, .constructor 0,
    .addMethod 0 "run" [⟨"argument", 1⟩] (.node 4), .addStatement 1 (.call "run" 1),
    .addMethod 0 "run" [⟨"other", 1⟩] (.node 4), .constructor 0, .constructor 1,
    .findMethod 1 "run", .lookup "B", .addImport "import c.D;", .define "B"]

def subclassModule : ModuleInfo :=
  ⟨"p/A.java", "p", 9, []⟩

theorem subclassOperations_history :
    FindOwners { moduleInfo := subclassModule } subclassOperations ∧
      SynthesizeOnDemand subclassOperations ∧
      answers { moduleInfo := subclassModule } subclassOperations =
        [.position 0, .position 1, .added true, .added false, .done, .done, .position 0,
          .position 1, .done, .position 1, .position 0, .position 2, .found none,
          .found (some 1), .done, .position 1] ∧
      ∃ registry, perform { moduleInfo := subclassModule } subclassOperations = registry ∧
        registry.IsArena ∧ registry.lookup "B" = some 1 ∧ registry.lookup "C" = none ∧
        registry.methodIndex[(⟨0, "run", [1], .node 4⟩ : MethodKey)]? = some 1 ∧
        (∀ name, name ∈ registry.definedNames ↔ .define name ∈ subclassOperations) ∧
        ∃ method : Method, registry.methods[2]? = some method ∧ method.IsSynthesized ∧
          ∀ other (methodToo : Method), registry.methods[other]? = some methodToo →
            methodToo.IsSynthesized → methodToo.owner = method.owner → other = 2 := by
  have findOwners : FindOwners { moduleInfo := subclassModule } subclassOperations := by
    rw [findOwners_iff (inStep_empty _)]
    decide +kernel
  have onDemand : SynthesizeOnDemand subclassOperations := by
    simp [SynthesizeOnDemand, subclassOperations]
  have history := perform_history findOwners
  generalize perform { moduleInfo := subclassModule } subclassOperations = registry at history ⊢
  obtain ⟨arena, ⟨lists, answered⟩, -, -, declared, constructors⟩ := history
  have named : registry.nameOf 1 = some "B" := by
    rw [lists]
    decide +kernel
  have unknown : registry.lookup "C" = none := by
    rw [lookup, arena.lookup_eq, lists]
    decide +kernel
  have keys : registry.methods.map Method.key =
      [⟨0, Syntax.constructorName, [], .synthesized⟩, ⟨0, "run", [1], .node 4⟩,
        ⟨1, Syntax.constructorName, [], .synthesized⟩] := by
    rw [lists]
    decide +kernel
  have indexed : registry.methodIndex[(⟨0, "run", [1], .node 4⟩ : MethodKey)]? = some 1 := by
    rw [arena.methods, keys]
    rfl
  have last : registry.methods[2]?.map Method.key =
      some ⟨1, Syntax.constructorName, [], .synthesized⟩ := by
    rw [← List.getElem?_map, keys]
    rfl
  obtain ⟨method, found, same⟩ := Option.map_eq_some_iff.mp last
  simp only [Method.key, MethodKey.mk.injEq] at same
  have isSynthesized : method.IsSynthesized := ⟨same.2.1, same.2.2.2⟩
  exact ⟨findOwners, onDemand, answered.trans (by decide +kernel), registry, rfl, arena,
    (arena.found "B" 1).mpr named, unknown, indexed, declared, method, found, isSynthesized,
    (constructors onDemand 2 method found isSynthesized).1⟩

/-- A type gets a second synthesized constructor by operations that add both outright. -/
theorem twoSynthesized :
    let operations : List Operation :=
      [.define "A", .addMethod 0 Syntax.constructorName [] .synthesized,
        .addMethod 0 Syntax.constructorName [⟨"x", 0⟩] .synthesized]
    let start : IndexedModel := { moduleInfo := ⟨"A.java", "", 0, []⟩ }
    start.FindOwners operations ∧
      ∃ method methodToo : Method, (start.perform operations).methods[0]? = some method ∧
        (start.perform operations).methods[1]? = some methodToo ∧ method.IsSynthesized ∧
        methodToo.IsSynthesized ∧ methodToo.owner = method.owner := by
  intro operations start
  have empty : start.InStep := inStep_empty _
  have lists := toModel_perform empty operations
  refine ⟨(findOwners_iff empty).mpr (by decide +kernel), ?_⟩
  rw [lists]
  exact ⟨_, _, rfl, rfl, ⟨rfl, rfl⟩, ⟨rfl, rfl⟩, rfl⟩

end IndexedModel

end JavaStructure
