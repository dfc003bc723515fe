/-
# Every class is defined

The walk defines a type for each class declaration that it comes to, and nothing that is done
later undoes a definition. Where nothing stands below the nodes that are visited as a whole,
the walk comes to every node, so every class of the tree is a type that the module declares.
-/

import JavaStructure.Proofs.Building.Attribution
import JavaStructure.Proofs.Building.Closure

namespace JavaStructure

open Syntax (Node Kind)

variable {resolver : Resolver} {node reached : Node} {builder state before after : Builder}
variable {qualified : String}

/-- Declared types keep their names. -/
theorem Model.Closes.definedNames_subset {before after : Model} (closes : Closes before after)
    (grows : Grows before after) : before.definedNames ⊆ after.definedNames := by
  intro name defined
  obtain ⟨id, entry, found, declared, rfl⟩ := Model.mem_definedNames.mp defined
  obtain ⟨later, foundLater, stillDeclared⟩ := closes.declared id ⟨entry, found, declared⟩
  have named : after.nameOf id = some entry.name := grows.nameOf (by rw [nameOf, found]; rfl)
  rw [nameOf, foundLater] at named
  exact Model.mem_definedNames.mpr
    ⟨id, later, foundLater, stillDeclared, Option.some.inj named⟩

/-- The one type of a name that the module declares. -/
theorem Model.Closed.exists_declared {model : Model} (closed : model.Closed)
    (defined : qualified ∈ model.definedNames) :
    ∃ type, model.IsDeclared type ∧
      ∀ other, model.nameOf other = some qualified ↔ other = type := by
  obtain ⟨type, entry, found, declared, rfl⟩ := Model.mem_definedNames.mp defined
  have named : (model.types.map (·.name))[type]? = some entry.name := by
    rw [List.getElem?_map, found]
    rfl
  have inside := (List.getElem?_eq_some_iff.mp named).1
  refine ⟨type, ⟨entry, found, declared⟩, fun other => ?_⟩
  rw [nameOf, ← List.getElem?_map]
  constructor
  · intro sameName
    have insideToo := (List.getElem?_eq_some_iff.mp sameName).1
    exact (List.getElem?_inj insideToo closed.names).mp (sameName.trans named.symm)
  · rintro rfl
    exact named

namespace Builder

theorem visitAll_closes (resolver : Resolver) (children : List Node) (sound : builder.IsSound) :
    Closes builder (visitAll resolver children builder) := by
  refine visitAll_related IsSound closes_self Closes.trans ?_ sound
  intro child member builder sound
  have closes := visitChild_closes (visit_closes resolver child) sound
  exact ⟨closes, (visitChild_keeps (visit_keeps resolver child) builder).isSound closes sound⟩

theorem visitAll_isSound (resolver : Resolver) (children : List Node) (sound : builder.IsSound) :
    (visitAll resolver children builder).IsSound :=
  (visitAll_keeps resolver children builder).isSound (visitAll_closes resolver children sound) sound

/-- Entering a node does not move to another package. -/
theorem enter_packageName (resolver : Resolver) (builder : Builder)
    (descended : node.kind.isDescended = true) :
    (enter resolver node builder).model.moduleInfo.packageName =
      builder.model.moduleInfo.packageName := by
  have opening := opening_of_isDescended resolver builder descended
  have children := visitAll_keeps resolver node.children (enter resolver node builder)
  have whole := (opening_keeps opening children).grows
  have rest := children.grows.trans (leaving_silent opening _).toGrows
  exact rest.packageName.symm.trans whole.packageName

/-- What is defined when the children of a node have been visited stays defined. -/
theorem definedNames_leave (resolver : Resolver) (descended : node.kind.isDescended = true)
    (sound : builder.IsSound) :
    (visitAll resolver node.children (enter resolver node builder)).model.definedNames ⊆
      (visit resolver node builder).model.definedNames := by
  have opening := opening_of_isDescended resolver builder descended
  obtain ⟨-, soundInside⟩ := opening_closes opening sound
  have soundVisited := visitAll_isSound resolver node.children soundInside
  rw [visit_eq_leave resolver builder descended]
  exact (leaving_closes opening soundVisited).definedNames_subset
    (leaving_silent opening _).toGrows

theorem definedNames_visitAll (resolver : Resolver) (children : List Node)
    (sound : builder.IsSound) :
    builder.model.definedNames ⊆ (visitAll resolver children builder).model.definedNames :=
  (visitAll_closes resolver children sound).definedNames_subset
    (visitAll_keeps resolver children builder).grows

/-- The visit of a class declaration defines the class. -/
theorem visit_defines {name : String} {flavor : Syntax.Flavor}
    (kind : node.kind = .classDecl name flavor) (sound : builder.IsSound)
    (declared : declaredClassName builder.model.moduleInfo.packageName name = some qualified) :
    qualified ∈ (visit resolver node builder).model.definedNames := by
  have descended : node.kind.isDescended = true := by rw [kind]; rfl
  have opening := opening_of_isDescended resolver builder descended
  obtain ⟨-, soundInside⟩ := opening_closes opening sound
  have defined : qualified ∈ (enter resolver node builder).model.definedNames := by
    have refers := declareClass_refers resolver builder node qualified
    simp only [enter, kind, declared]
    refine refers.definedNames ▸ ?_
    exact (Model.mem_definedNames_define builder.model qualified qualified).mpr (.inr rfl)
  exact definedNames_leave resolver descended sound
    (definedNames_visitAll resolver node.children soundInside defined)

/-- What the visit of a node defines that the walk comes to stays defined. -/
theorem Reaches.definedNames (reaches : Reaches resolver node builder reached state)
    (sound : builder.IsSound) :
    state.IsSound ∧
      state.model.moduleInfo.packageName = builder.model.moduleInfo.packageName ∧
      (visit resolver reached state).model.definedNames ⊆
        (visit resolver node builder).model.definedNames := by
  induction reaches with
  | self => exact ⟨sound, rfl, List.Subset.refl _⟩
  | @inside node reached builder state before child after descended children onward ih =>
      obtain ⟨-, soundInside⟩ :=
        opening_closes (opening_of_isDescended resolver builder descended) sound
      have kept := visitAll_keeps resolver before (enter resolver node builder)
      have soundBefore := visitAll_isSound resolver before soundInside
      have soundEntered : (enterRole child
          (visitAll resolver before (enter resolver node builder))).IsSound := by
        unfold enterRole
        split
        · exact soundBefore.withFrame _
        · exact soundBefore
      obtain ⟨soundState, packageName, defined⟩ := ih soundEntered
      refine ⟨soundState, ?_, ?_⟩
      · rw [packageName, enterRole_model, kept.grows.packageName,
          enter_packageName resolver builder descended]
      · have closes := visitChild_closes (visit_closes resolver child) soundBefore
        have keeps := visitChild_keeps (visit_keeps resolver child)
          (visitAll resolver before (enter resolver node builder))
        have later := definedNames_visitAll resolver after (keeps.isSound closes soundBefore)
        have whole := definedNames_leave resolver descended sound
        rw [children, visitAll_append, visitAll_cons] at whole
        rw [← visitChild_model] at defined
        exact fun name found => whole (later (defined found))

/-- Where nothing stands below the nodes that are visited as a whole, the walk comes to every
node. -/
theorem exists_reaches (resolver : Resolver) (builder : Builder)
    (leaves : ∀ inner ∈ node.preorder, inner.kind.isDescended = false → inner.children = [])
    (below : reached ∈ node.preorder) : ∃ state, Reaches resolver node builder reached state := by
  induction node using Node.inductionOnChildren generalizing builder with
  | step node ih =>
      rw [Node.preorder_eq] at below
      rcases List.mem_cons.mp below with rfl | deeper
      · exact ⟨builder, .self⟩
      · obtain ⟨child, member, within⟩ := Node.mem_preorderAll.mp deeper
        obtain ⟨before, after, children⟩ := List.append_of_mem member
        have descended : node.kind.isDescended = true := by
          by_contra leaf
          have bare := leaves node node.mem_preorder_self (by simpa using leaf)
          simp [bare] at member
        obtain ⟨state, onward⟩ := ih child member
          (enterRole child (visitAll resolver before (enter resolver node builder)))
          (fun inner inside => leaves inner (Node.mem_preorder_of_mem_children member inside))
          within
        exact ⟨state, .inside before child after descended children onward⟩

end Builder

/-- The classes of a tree are types that the module declares, if the walk misses no node. -/
theorem ofUnit_defines (resolver : Resolver) (root : Node) (path : String)
    (leaves : ∀ inner ∈ root.preorder, inner.kind.isDescended = false → inner.children = [])
    {declaration : Node} (below : declaration ∈ root.preorder) {name : String}
    {flavor : Syntax.Flavor} (kind : declaration.kind = .classDecl name flavor)
    (declared : declaredClassName resolver.packageName name = some qualified) :
    qualified ∈ (Model.ofUnit resolver root path).definedNames := by
  obtain ⟨state, reaches⟩ :=
    Builder.exists_reaches resolver (Builder.initial resolver path) leaves below
  obtain ⟨sound, packageName, defined⟩ :=
    reaches.definedNames (Builder.initial_isSound resolver path)
  refine defined (Builder.visit_defines kind sound ?_)
  rw [packageName]
  exact declared

end JavaStructure
