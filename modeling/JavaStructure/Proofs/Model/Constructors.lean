/-
# The constructors of a model

A type gets a constructor by its declaration, or by a search that finds none. This module says of
one operation which constructors there are after it, by the names of the types that have them, and
what every constructor is like that no declaration stands for.
-/

import JavaStructure.Proofs.Model.Declarations
import JavaStructure.Proofs.Model.History

namespace JavaStructure

namespace Model

variable {model before middle after : Model} {id owner : TypeId} {name typeName : String}

/-- Whether the type of a name has a constructor that stands for a declaration, or one that stands
for none. -/
def HasConstructor (model : Model) (typeName : String) (isDeclared : Bool) : Prop :=
  ∃ header ∈ model.methods.map (·.header), header.name = Syntax.constructorName ∧
    header.origin.node?.isSome = isDeclared ∧ model.nameOf header.owner = some typeName

/-- The later model has the methods of the earlier one and no others, whatever they do by now. -/
structure SameMethods (before after : Model) : Prop extends Grows before after where
  same : after.methods.map (·.header) = before.methods.map (·.header)

namespace SameMethods

theorem refl (model : Model) : SameMethods model model :=
  ⟨.refl model, rfl⟩

theorem trans (first : SameMethods before middle) (second : SameMethods middle after) :
    SameMethods before after :=
  ⟨first.toGrows.trans second.toGrows, second.same.trans first.same⟩

theorem of_methods_eq (grows : Grows before after) (same : after.methods = before.methods) :
    SameMethods before after :=
  ⟨grows, by rw [same]⟩

theorem addStatement (model : Model) (id : MethodId) (statement : Statement) :
    SameMethods model (model.addStatement id statement) := by
  refine ⟨addStatement_grows .., ?_⟩
  refine map_modify_of_eq Method.header ?_ model.methods id
  exact fun _ => rfl

end SameMethods

theorem Closed.owner_lt (closed : model.Closed) {header : MethodHeader}
    (inside : header ∈ model.methods.map (·.header)) : header.owner < model.types.length := by
  obtain ⟨method, member, rfl⟩ := List.mem_map.mp inside
  exact closed.ofMethods method member method.owner List.mem_cons_self

/-- Every type lists its methods, and one that does not exist has none. -/
theorem Closed.methodIds_eq (closed : model.Closed) (owner : TypeId) :
    model.methodIds owner = model.idsOwnedBy owner := by
  by_cases inside : owner < model.types.length
  · exact closed.listed owner inside
  · have outside : model.types.length ≤ owner := Nat.le_of_not_lt inside
    rw [closed.idsOwnedBy_eq_nil outside, methodIds, List.getElem?_eq_none outside]

/-- The elements at the positions of some elements are those elements. -/
theorem filterMap_positions {α : Type} (test : α → Bool) (elements : List α) :
    ((List.range elements.length).filter fun position =>
        (elements[position]?.map test) = some true).filterMap (elements[·]?) =
      elements.filter test := by
  induction elements with
  | nil => rfl
  | cons first rest ih =>
      rw [List.length_cons, List.range_succ_eq_map, List.filter_cons, List.filter_map,
        List.filter_cons]
      cases holds : test first <;>
        simp [-Option.map_eq_some_iff, holds, Function.comp_def, List.filterMap_map, ih]

/-- The methods that a type lists are those that belong to it, in their order. -/
theorem Closed.methodsOf_eq (closed : model.Closed) (owner : TypeId) :
    model.methodsOf owner = model.methods.filter (·.owner = owner) := by
  rw [methodsOf, closed.methodIds_eq, idsOwnedBy, ← filterMap_positions _ model.methods]
  congr 1
  apply List.filter_congr
  intro id _
  rw [List.getElem?_map]
  cases model.methods[id]? <;> simp

theorem Closed.mem_methodsOf_iff (closed : model.Closed) {method : Method} :
    method ∈ model.methodsOf owner ↔ method ∈ model.methods ∧ method.owner = owner := by
  rw [closed.methodsOf_eq, List.mem_filter, decide_eq_true_eq]

/-- A search finds nothing exactly where the type has no method of the name. -/
theorem Closed.findMethod_eq_none_iff (closed : model.Closed) :
    model.findMethod owner name = none ↔
      ∀ method ∈ model.methods, method.owner = owner → method.name ≠ name := by
  rw [findMethod, closed.methodIds_eq, List.find?_eq_none]
  constructor
  · intro missing method inside owned
    obtain ⟨id, found⟩ := List.mem_iff_getElem?.mp inside
    have other := missing id (mem_idsOwnedBy.mpr ⟨method, found, owned⟩)
    simpa [found] using other
  · intro others id listed
    obtain ⟨method, found, owned⟩ := mem_idsOwnedBy.mp listed
    simpa [found] using others method (List.mem_of_getElem? found) owned

/-- The constructors after some methods were added at the end. -/
theorem hasConstructor_of_appended (closed : before.Closed) (grows : Grows before after)
    (added : List MethodHeader)
    (appended : after.methods.map (·.header) = before.methods.map (·.header) ++ added)
    (isDeclared : Bool) :
    after.HasConstructor typeName isDeclared ↔
      before.HasConstructor typeName isDeclared ∨
        ∃ header ∈ added, header.name = Syntax.constructorName ∧
          header.origin.node?.isSome = isDeclared ∧ after.nameOf header.owner = some typeName := by
  have named {header : MethodHeader} (inside : header ∈ before.methods.map (·.header)) :
      after.nameOf header.owner = before.nameOf header.owner :=
    grows.nameOf_eq (closed.owner_lt inside)
  unfold HasConstructor
  rw [appended]
  constructor
  · rintro ⟨header, inside, isConstructor, origin, owned⟩
    rcases List.mem_append.mp inside with old | new
    · exact .inl ⟨header, old, isConstructor, origin, named old ▸ owned⟩
    · exact .inr ⟨header, new, isConstructor, origin, owned⟩
  · rintro (⟨header, old, isConstructor, origin, owned⟩ |
      ⟨header, new, isConstructor, origin, owned⟩)
    · exact ⟨header, List.mem_append_left _ old, isConstructor, origin, (named old).trans owned⟩
    · exact ⟨header, List.mem_append_right _ new, isConstructor, origin, owned⟩

theorem SameMethods.hasConstructor_iff (same : SameMethods before after) (closed : before.Closed)
    (isDeclared : Bool) :
    after.HasConstructor typeName isDeclared ↔ before.HasConstructor typeName isDeclared := by
  rw [hasConstructor_of_appended closed same.toGrows []]
  · simp
  · rw [same.same, List.append_nil]

/-- A method that is added, or is there already, is a constructor if it is named so. -/
theorem hasConstructor_addMethod (closed : model.Closed) {ownerName : String}
    (named : model.nameOf owner = some ownerName) (name : String) (parameters : List Slot)
    (origin : Origin) (isDeclared : Bool) :
    (model.addMethod owner name parameters origin).2.HasConstructor typeName isDeclared ↔
      model.HasConstructor typeName isDeclared ∨
        (name = Syntax.constructorName ∧ origin.node?.isSome = isDeclared ∧
          typeName = ownerName) := by
  have grows := (addMethod_registers model owner name parameters origin).toGrows
  have ownerNamed := grows.nameOf named
  revert grows ownerNamed
  rw [addMethod]
  split
  · next id found =>
      intro _ _
      obtain ⟨inside, matching, -⟩ := List.findIdx?_eq_some_iff_getElem.mp found
      have key := isMethodFor_iff.mp matching
      simp only [Method.key, MethodKey.mk.injEq] at key
      obtain ⟨owned, sameName, -, sameOrigin⟩ := key
      refine ⟨.inl, ?_⟩
      rintro (had | ⟨rfl, rfl, rfl⟩)
      · exact had
      · refine ⟨model.methods[id].header, List.mem_map_of_mem (List.getElem_mem inside), sameName,
          congrArg (fun origin : Origin => origin.node?.isSome) sameOrigin, ?_⟩
        rw [← named, ← owned]
        rfl
  · intro grows ownerNamed
    rw [hasConstructor_of_appended closed grows [{ owner, name, origin, parameters }]
      (by simp [modifyType, Method.header])]
    simp only [List.mem_singleton, exists_eq_left]
    rw [ownerNamed, Option.some.injEq, eq_comm (a := ownerName)]

/-- A type whose methods hold no constructor has none of either kind, and the other way round. -/
theorem Closed.findMethod_constructor_eq_none_iff (closed : model.Closed)
    (named : model.nameOf owner = some typeName) :
    model.findMethod owner Syntax.constructorName = none ↔
      ∀ isDeclared, ¬ model.HasConstructor typeName isDeclared := by
  rw [closed.findMethod_eq_none_iff]
  constructor
  · rintro others isDeclared ⟨header, inside, isConstructor, -, owned⟩
    obtain ⟨method, member, rfl⟩ := List.mem_map.mp inside
    have sameOwner : method.owner = owner := by
      rw [← lookup_eq_some_iff closed.names] at named owned
      exact Option.some.inj (owned.symm.trans named)
    exact others method member sameOwner isConstructor
  · intro none method member owned isConstructor
    refine none _ ⟨method.header, List.mem_map_of_mem member, isConstructor, rfl, ?_⟩
    rw [← named, ← owned]
    rfl

/-- After a search for its constructor a type has one: the one it had, or one that stands for no
declaration. -/
theorem hasConstructor_constructor (closed : model.Closed) {ownerName : String}
    (named : model.nameOf owner = some ownerName) (isDeclared : Bool) :
    (model.constructor owner).2.HasConstructor typeName isDeclared ↔
      model.HasConstructor typeName isDeclared ∨
        (isDeclared = false ∧ typeName = ownerName ∧ ¬ model.HasConstructor ownerName true) := by
  have missing_iff := closed.findMethod_constructor_eq_none_iff named
  rw [constructor]
  split
  · next id found =>
      refine ⟨.inl, ?_⟩
      rintro (had | ⟨rfl, rfl, undeclared⟩)
      · exact had
      · by_contra unsynthesized
        have missing := missing_iff.mpr (Bool.forall_bool.mpr ⟨unsynthesized, undeclared⟩)
        rw [missing] at found
        cases found
  · next missing =>
      have none := missing_iff.mp missing true
      rw [hasConstructor_addMethod closed named]
      simp [Origin.node?, none, eq_comm]

/-- Methods that stand for no declaration are constructors without parameters and statements, and
no type has two of them. -/
structure IsModest (model : Model) : Prop where
  plain : ∀ method ∈ model.methods, method.origin = .synthesized →
    method.name = Syntax.constructorName ∧ method.parameters = [] ∧ method.statements = []
  once : ((model.methods.filter (·.origin = .synthesized)).map (·.owner)).Nodup

/-- No type lists two synthesized constructors. -/
theorem IsModest.length_le_one (modest : model.IsModest) (closed : model.Closed) (owner : TypeId) :
    ((model.methodsOf owner).filter (·.origin = .synthesized)).length ≤ 1 := by
  have count := List.nodup_iff_count_le_one.mp modest.once owner
  rw [List.count, List.countP_map, List.countP_eq_length_filter] at count
  rw [List.filter_filter] at count
  rw [closed.methodsOf_eq, List.filter_filter]
  refine Nat.le_trans (Nat.le_of_eq (congrArg List.length (List.filter_congr ?_))) count
  intro method _
  simp [Bool.and_comm, beq_eq_decide]

/-- Only the methods count. -/
theorem IsModest.of_methods_eq (modest : before.IsModest) (same : after.methods = before.methods) :
    after.IsModest :=
  ⟨same ▸ modest.plain, same ▸ modest.once⟩

/-- A declared method is of no concern. -/
theorem IsModest.addMethod (modest : model.IsModest) (owner : TypeId) (name : String)
    (parameters : List Slot) (node : Nat) :
    (model.addMethod owner name parameters (.node node)).2.IsModest := by
  rw [Model.addMethod]
  split
  · exact modest
  · refine ⟨?_, ?_⟩
    · intro method inside synthesized
      rcases List.mem_append.mp inside with old | new
      · exact modest.plain method old synthesized
      · obtain rfl := List.mem_singleton.mp new
        cases synthesized
    · simpa [modifyType] using modest.once

/-- A constructor is synthesized only for a type that has none. -/
theorem IsModest.constructor (modest : model.IsModest) (closed : model.Closed) (owner : TypeId) :
    (model.constructor owner).2.IsModest := by
  rw [Model.constructor]
  split
  · exact modest
  · next missing =>
      rw [Model.addMethod]
      split
      · exact modest
      · have others := closed.findMethod_eq_none_iff.mp missing
        refine ⟨?_, ?_⟩
        · intro method inside synthesized
          rcases List.mem_append.mp inside with old | new
          · exact modest.plain method old synthesized
          · obtain rfl := List.mem_singleton.mp new
            exact ⟨rfl, rfl, rfl⟩
        · have new : owner ∉ (model.methods.filter (·.origin = .synthesized)).map (·.owner) := by
            intro listed
            obtain ⟨method, inside, owned⟩ := List.mem_map.mp listed
            obtain ⟨member, synthesized⟩ := List.mem_filter.mp inside
            exact others method member owned
              (modest.plain method member (by simpa using synthesized)).1
          have extended := modest.once.concat new
          simpa [modifyType] using extended

/-- A statement may be added to a method that stands for a declaration. -/
theorem IsModest.addStatement (modest : model.IsModest) (declared : (model.nodeOf id).isSome)
    (statement : Statement) : (model.addStatement id statement).IsModest := by
  refine ⟨?_, ?_⟩
  · intro method inside synthesized
    rcases mem_addStatement inside with old | ⟨before, found, rfl⟩
    · exact modest.plain method old synthesized
    · have origin : before.origin = .synthesized := synthesized
      simp [nodeOf, found, origin, Origin.node?] at declared
  · have owners (model : Model) : (model.methods.filter (·.origin = .synthesized)).map (·.owner) =
        ((model.methods.map (·.header)).filter (·.origin = .synthesized)).map (·.owner) := by
      rw [List.filter_map, List.map_map]
      rfl
    rw [owners, (SameMethods.addStatement model id statement).same, ← owners]
    exact modest.once

/-- The method of a declaration stands at the node of the declaration, whether it is new or not. -/
theorem nodeOf_addMethod (model : Model) (owner : TypeId) (name : String) (parameters : List Slot)
    (node : Nat) :
    (model.addMethod owner name parameters (.node node)).2.nodeOf
      (model.addMethod owner name parameters (.node node)).1 = some node := by
  rw [addMethod]
  split
  · next id found =>
      obtain ⟨inside, matching, -⟩ := List.findIdx?_eq_some_iff_getElem.mp found
      have key := isMethodFor_iff.mp matching
      simp only [Method.key, MethodKey.mk.injEq] at key
      simp [nodeOf, List.getElem?_eq_getElem inside, key, Origin.node?]
  · simp [nodeOf, modifyType, Origin.node?]

end Model

end JavaStructure
