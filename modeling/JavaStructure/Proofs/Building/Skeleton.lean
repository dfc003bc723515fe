/-
# What a resolver decides of a model

A resolver that knows more names leaves more in a model: types that are only mentioned,
members, relations, parameters, calls, uses of variables, and constructors for what is
constructed. With them the positions of types and methods change. `Model.skeleton` is what
remains of a model by names without all of that, and `Model.FilledBy` says how little else
there can be; two resolvers that agree on the package fill one skeleton.
-/

import JavaStructure.Proofs.Building.Constructors

namespace JavaStructure

open Syntax (Node)

/-- What a model says without the line count, positions, types that are only mentioned,
members, relations, parameters, calls, variable uses and synthesized constructors. -/
structure Skeleton where
  path : String
  packageName : String
  imports : List String
  /-- The declared methods that the type of a name lists, if the module declares it. -/
  types : String → Option (List Declaration)
  methods : List Declaration

namespace Model

variable {model : Model} {resolver : Resolver} {name : String}

/-- The entry of the type of a name that the module declares. -/
def declaredType? (model : Model) (name : String) : Option TypeEntry :=
  model.types.find? fun entry => entry.moduleDefined && entry.name == name

def skeleton (model : Model) : Skeleton where
  path := model.moduleInfo.path
  packageName := model.moduleInfo.packageName
  imports := model.moduleInfo.imports
  types := fun name => (model.declaredType? name).map fun entry =>
    entry.methods.filterMap fun id => model.methods[id]?.bind model.declaration?
  methods := model.declarations

/-- Beyond its skeleton a model has the line count that its resolver tells, and nothing in
the place of types and methods but those that are listed: a type lists its own methods, one
that is only mentioned lists no declared method, and a method without a declaration is the
one synthesized constructor of its type, without parameters and statements. -/
structure FilledBy (resolver : Resolver) (model : Model) : Prop where
  lineCount : model.moduleInfo.lineCount = resolver.lineCount
  names : (model.types.map (·.name)).Nodup
  listed : ∀ type, model.methodIds type = model.idsOwnedBy type
  mentioned : ∀ entry ∈ model.types, entry.moduleDefined = false →
    ∀ id ∈ entry.methods, model.nodeOf id = none
  plain : ∀ method ∈ model.methods, method.origin = .synthesized →
    method.name = Syntax.constructorName ∧ method.parameters = [] ∧ method.statements = []
  once : ∀ type, ((model.methodsOf type).filter (·.origin = .synthesized)).length ≤ 1

/-- The declared methods of a type are those declared under its name. -/
theorem Closed.filterMap_declaration? (closed : model.Closed) {id : TypeId} {entry : TypeEntry}
    (found : model.types[id]? = some entry) :
    (entry.methods.filterMap fun method => model.methods[method]?.bind model.declaration?) =
      model.declarations.filter (·.owner = some entry.name) := by
  have named : model.nameOf id = some entry.name := congrArg (Option.map TypeEntry.name) found
  have owner_iff (owner : TypeId) : owner = id ↔ model.nameOf owner = some entry.name := by
    rw [← lookup_eq_some_iff closed.names, (lookup_eq_some_iff closed.names).mpr named,
      Option.some.injEq, eq_comm]
  calc entry.methods.filterMap (fun method => model.methods[method]?.bind model.declaration?)
      = (model.methodsOf id).filterMap model.declaration? := by
        rw [methodsOf, Model.methodIds_eq found, List.filterMap_filterMap]
    _ = (model.methods.filter (·.owner = id)).filterMap model.declaration? := by
        rw [closed.methodsOf_eq]
    _ = model.declarations.filter (·.owner = some entry.name) := by
        rw [declarations, List.filter_filterMap, List.filterMap_filter]
        apply List.filterMap_congr
        intro method _
        simp only [declaration?, owner_iff, Option.filter_map]
        cases method.origin.node? <;> simp [Option.filter]

/-- The declared types and the declared methods decide what the types list. -/
theorem Closed.skeleton_types (closed : model.Closed) (name : String) :
    model.skeleton.types name =
      if name ∈ model.definedNames then some (model.declarations.filter (·.owner = some name))
      else none := by
  dsimp only [skeleton]
  cases found : model.declaredType? name with
  | none =>
      have undefined : name ∉ model.definedNames := by
        rw [mem_definedNames]
        rintro ⟨id, entry, here, defined, rfl⟩
        have other := List.find?_eq_none.mp found entry (List.mem_of_getElem? here)
        simp [defined] at other
      rw [if_neg undefined]
      rfl
  | some entry =>
      obtain ⟨defined, rfl⟩ : entry.moduleDefined = true ∧ entry.name = name := by
        simpa using List.find?_some found
      obtain ⟨id, here⟩ := List.mem_iff_getElem?.mp (List.mem_of_find?_eq_some found)
      rw [if_pos (mem_definedNames.mpr ⟨id, entry, here, defined, rfl⟩), Option.map_some,
        closed.filterMap_declaration? here]

/-- A type that is only mentioned owns no declared method. -/
theorem Closed.nodeOf_eq_none (closed : model.Closed) {entry : TypeEntry}
    (inside : entry ∈ model.types) (mentioned : entry.moduleDefined = false) {id : MethodId}
    (listed : id ∈ entry.methods) : model.nodeOf id = none := by
  obtain ⟨type, here⟩ := List.mem_iff_getElem?.mp inside
  rw [← Model.methodIds_eq here, closed.methodIds_eq] at listed
  obtain ⟨method, found, rfl⟩ := mem_idsOwnedBy.mp listed
  cases origin : method.origin with
  | synthesized => simp [nodeOf, found, origin, Origin.node?]
  | node node =>
      obtain ⟨entryToo, hereToo, defined⟩ :=
        closed.placed method (List.mem_of_getElem? found) (.inl (by simp [origin]))
      obtain rfl := Option.some.inj (here.symm.trans hereToo)
      rw [mentioned] at defined
      cases defined

end Model

/-- A walk changes nothing that is known of the module but the imports. -/
theorem withoutImports_ofUnit (resolver : Resolver) (root : Node) (path : String) :
    (Model.ofUnit resolver root path).moduleInfo.withoutImports =
      { path, packageName := resolver.packageName, lineCount := resolver.lineCount } :=
  (Builder.visit_keeps resolver root (Builder.initial resolver path)).grows.moduleInfo

theorem ofUnit_filledBy (resolver : Resolver) (root : Node) (path : String) :
    (Model.ofUnit resolver root path).FilledBy resolver := by
  have closed := Model.ofUnit_closed resolver root path
  have modest := (Builder.visit_tallies resolver root (Builder.initial_poised resolver path)).2
  exact {
    lineCount := congrArg ModuleInfo.lineCount (withoutImports_ofUnit resolver root path)
    names := closed.names
    listed := closed.methodIds_eq
    mentioned := fun _ inside mentioned _ listed => closed.nodeOf_eq_none inside mentioned listed
    plain := modest.plain
    once := modest.length_le_one closed }

/-- Two models of one tree with distinct node ids, built with resolvers that agree on the
package, have the same declared types, imports and declared methods, and each method opens
and closes the same scopes. Nothing else tells them apart but what each resolver fills in. -/
theorem ofUnit_alike (first second : Resolver) (root : Node) (path : String)
    (packageName : first.packageName = second.packageName)
    (distinct : (root.preorder.map (·.id)).Nodup) :
    let model := Model.ofUnit first root path
    let modelToo := Model.ofUnit second root path
    (∀ name, name ∈ model.definedNames ↔ name ∈ modelToo.definedNames) ∧
      model.moduleInfo.imports = modelToo.moduleInfo.imports ∧
      model.declarations = modelToo.declarations ∧
      model.skeleton = modelToo.skeleton ∧ model.FilledBy first ∧ modelToo.FilledBy second := by
  intro model modelToo
  have alike : model.Alike modelToo :=
    Model.ofUnit_modelsAlike first second root path packageName distinct
  have paths : model.moduleInfo.path = modelToo.moduleInfo.path := by
    have path (resolver : Resolver) : (Model.ofUnit resolver root path).moduleInfo.path = path :=
      congrArg ModuleInfo.path (withoutImports_ofUnit resolver root path)
    rw [path first, path second]
  have types : model.skeleton.types = modelToo.skeleton.types := by
    funext name
    rw [(Model.ofUnit_closed first root path).skeleton_types,
      (Model.ofUnit_closed second root path).skeleton_types, alike.declarations,
      if_congr (alike.defined name) rfl rfl]
  refine ⟨alike.defined, alike.imports, alike.declarations, ?_, ofUnit_filledBy first root path,
    ofUnit_filledBy second root path⟩
  unfold Model.skeleton at types ⊢
  congr 1
  · exact alike.packageName
  · exact alike.imports
  · exact alike.declarations

/-- A resolver that knows nothing and one that knows `House` and `Door` see the same method
with the same scope, though one of them knows of one type more. -/
theorem houseUnit_alike :
    let model := Model.ofUnit .silent houseUnit "House.java"
    let modelToo := Model.ofUnit houseResolver houseUnit "House.java"
    Resolver.silent.packageName = houseResolver.packageName ∧
      (houseUnit.preorder.map (·.id)).Nodup ∧
      model.types.length = 1 ∧ modelToo.types.length = 2 ∧
      modelToo.declarations = [⟨some "House", "enter", 2, [.openScope "[]", .closeScope]⟩] ∧
      modelToo.skeleton.types "House" = some modelToo.declarations ∧
      modelToo.skeleton.types "Door" = none ∧
      modelToo.FilledBy houseResolver := by
  intro model modelToo
  have distinct : (houseUnit.preorder.map (·.id)).Nodup := by decide
  obtain ⟨-, -, declarations, skeletons, -, filled⟩ :=
    ofUnit_alike .silent houseResolver houseUnit "House.java" rfl distinct
  refine ⟨rfl, distinct, by decide +kernel, by decide +kernel, ?_, ?_, ?_, filled⟩
  · rw [← declarations]
    decide +kernel
  · rw [← skeletons, ← declarations]
    decide +kernel
  · rw [← skeletons]
    decide +kernel

/-- A resolver that knows the class `Door`. -/
def doorResolver : Resolver :=
  { packageName := ""
    lineCount := 1
    symbol := fun node =>
      if node.name? = some "Door" then
        some { kind := .classSymbol, name := "Door", qualifiedName := some "Door" }
      else none
    scope := fun _ => none }

/-- A unit with a class that constructs another, which is declared last. -/
def shedUnit : Node :=
  .bare 0 .compilationUnit
    [.bare 1 (.classDecl "House" .classType)
      [.bare 2 (.methodDecl "enter")
        [.bare 3 .creation
          [{ Node.bare 4 (.identifier "Door" true) [] with role := some .identifier }]]],
    .bare 5 (.classDecl "Shed" .classType) [],
    .bare 6 (.classDecl "Door" .classType) []]

/-- All types of the unit are declared, and yet the resolvers leave other methods, another
order of the types and another line count. -/
theorem shedUnit_not_sameMethods :
    let model := Model.ofUnit .silent shedUnit "House.java"
    let modelToo := Model.ofUnit doorResolver shedUnit "House.java"
    Resolver.silent.packageName = doorResolver.packageName ∧
      (shedUnit.preorder.map (·.id)).Nodup ∧
      model.types.map (fun entry => (entry.name, entry.moduleDefined)) =
        [("House", true), ("Shed", true), ("Door", true)] ∧
      modelToo.types.map (fun entry => (entry.name, entry.moduleDefined)) =
        [("House", true), ("Door", true), ("Shed", true)] ∧
      model.methods.map (fun method => (model.nameOf method.owner, method.name, method.origin)) =
        [(some "House", "enter", .node 2)] ∧
      modelToo.methods.map
          (fun method => (modelToo.nameOf method.owner, method.name, method.origin)) =
        [(some "House", "enter", .node 2),
          (some "Door", Syntax.constructorName, .synthesized)] ∧
      model.moduleInfo.lineCount ≠ modelToo.moduleInfo.lineCount := by
  decide +kernel

end JavaStructure
