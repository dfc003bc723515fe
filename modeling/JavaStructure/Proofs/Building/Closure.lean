/-
# Building keeps references closed

A type is registered before anything refers to it, and a method is only open while the
class that it belongs to is declared. So every step of the walk keeps the model closed,
whatever the tree and whatever the resolver answers.
-/

import JavaStructure.Proofs.Building.Outline
import JavaStructure.Proofs.Model.Closure

namespace JavaStructure

open Syntax (Node Role)

namespace Builder

variable {resolver : Resolver} {node : Node} {builder before middle after inside visited : Builder}
variable {leaving : Builder → Builder} {type : TypeId}

/-- The model is closed, the current class is declared, and the open method belongs to a
declared class. -/
structure IsSound (builder : Builder) : Prop where
  closed : builder.model.Closed
  currentClass : ∀ type, builder.currentClass = some type → builder.model.IsDeclared type
  currentMethod : ∀ id, builder.currentMethod = some id → builder.model.IsPlaced id

/-- The later state has a closed model that declares what the earlier one declares. -/
abbrev Closes (before after : Builder) : Prop :=
  before.model.Closes after.model

theorem closes_self (builder : Builder) (sound : builder.IsSound) : Closes builder builder :=
  Model.Closes.refl sound.closed

theorem Closes.trans (first : Closes before middle) (second : Closes middle after) :
    Closes before after :=
  Model.Closes.trans first second

theorem Keeps.isSound (keeps : Keeps before after) (closes : Closes before after)
    (sound : before.IsSound) : after.IsSound where
  closed := closes.closed
  currentClass type current := by
    rw [keeps.currentClass] at current
    exact closes.declared type (sound.currentClass type current)
  currentMethod id current := by
    rw [keeps.currentMethod] at current
    exact closes.isPlaced keeps.grows (sound.currentMethod id current)

/-- A method is declared in a declared class. -/
theorem IsSound.isDeclared_methodOwner (sound : builder.IsSound)
    (owned : builder.methodOwner = some type) : builder.model.IsDeclared type := by
  rw [methodOwner] at owned
  split at owned
  · exact sound.currentClass type owned
  · cases owned

/-- The frame is of no concern. -/
theorem IsSound.withFrame (sound : builder.IsSound) (frame : Frame) :
    (builder.withFrame frame).IsSound :=
  ⟨sound.closed, sound.currentClass, sound.currentMethod⟩

theorem slotOf_closes (resolver : Resolver) (closed : builder.model.Closed) (node : Node) :
    Closes builder (builder.slotOf resolver node).2 ∧
      ∀ slot ∈ (builder.slotOf resolver node).1,
        slot.type < (builder.slotOf resolver node).2.model.types.length := by
  rw [slotOf]
  split
  · split
    · next name kind typeName known =>
        obtain ⟨closes, below⟩ := Model.intern_closes closed typeName
        refine ⟨closes, ?_⟩
        rintro slot ⟨⟩
        exact below
    · exact ⟨.refl closed, by rintro slot ⟨⟩⟩
  · exact ⟨.refl closed, by rintro slot ⟨⟩⟩

theorem slotsOf_closes (resolver : Resolver) (closed : builder.model.Closed) (nodes : List Node) :
    Closes builder (builder.slotsOf resolver nodes).2 ∧
      ∀ slot ∈ (builder.slotsOf resolver nodes).1,
        slot.type < (builder.slotsOf resolver nodes).2.model.types.length := by
  induction nodes generalizing builder with
  | nil => exact ⟨.refl closed, by rintro slot ⟨⟩⟩
  | cons node rest ih =>
      obtain ⟨first, typed⟩ := slotOf_closes resolver closed node
      obtain ⟨later, typedLater⟩ := ih first.closed
      have grows := (slotsOf_mentions resolver (builder.slotOf resolver node).2 rest).model.toGrows
      refine ⟨first.trans later, fun slot member => ?_⟩
      rcases List.mem_append.mp member with head | tail
      · exact Nat.lt_of_lt_of_le (typed slot (Option.mem_toList.mp head)) grows.types_length_le
      · exact typedLater slot tail

theorem relate_closes (resolver : Resolver) (type : TypeId) (kind : RelationKind)
    (closed : builder.model.Closed) (mentioned : Node) :
    Closes builder (builder.relate resolver type kind mentioned) := by
  rw [relate]
  split
  · next name known =>
      obtain ⟨closes, below⟩ := Model.intern_closes closed name
      exact closes.trans (Model.addRelation_closes closes.closed below)
  · exact .refl closed

/-- Steps that keep a model closed do so in any number. -/
theorem foldl_closes {α : Type} {step : Builder → α → Builder}
    (closes : ∀ {builder : Builder}, builder.model.Closed → ∀ item,
      Closes builder (step builder item))
    (items : List α) (closed : builder.model.Closed) :
    Closes builder (items.foldl step builder) := by
  induction items generalizing builder with
  | nil => exact .refl closed
  | cons item rest ih => exact (closes closed item).trans (ih (closes closed item).closed)

theorem addMembers_closes (resolver : Resolver) (type : TypeId) (closed : builder.model.Closed)
    (nodes : List Node) : Closes builder (builder.addMembers resolver type nodes) := by
  apply foldl_closes _ nodes closed
  intro builder closed node
  obtain ⟨closes, typed⟩ := slotOf_closes resolver closed node
  split
  case h_1 slot found taken =>
      rw [taken] at closes typed
      exact closes.trans (Model.addMember_closes closes.closed (typed slot rfl))
  case h_2 found taken =>
      rw [taken] at closes
      exact closes

theorem declareClass_closes (resolver : Resolver) (closed : builder.model.Closed) (node : Node)
    (name : String) :
    Closes builder (builder.declareClass resolver node name).2 ∧
      (builder.declareClass resolver node name).2.model.IsDeclared
        (builder.declareClass resolver node name).1 := by
  obtain ⟨defined, declared⟩ := Model.define_closes closed name
  have extended : Closes (builder.withModel (builder.model.define name).2) _ :=
    foldl_closes (relate_closes resolver (builder.model.define name).1 .extension)
      (node.childrenAs .superclass) defined.closed
  have implemented := foldl_closes
    (relate_closes resolver (builder.model.define name).1 .implementation)
    (node.childrenAs .superinterface) extended.closed
  have filled := addMembers_closes resolver (builder.model.define name).1 implemented.closed
    (node.childrenAs .member)
  have later := (extended.trans implemented).trans filled
  exact ⟨defined.trans later, later.declared _ declared⟩

theorem declareMethod_closes (resolver : Resolver) (closed : builder.model.Closed) (node : Node)
    {owner : TypeId} (declared : builder.model.IsDeclared owner) (name : String) :
    Closes builder (builder.declareMethod resolver node owner name).2 ∧
      (builder.declareMethod resolver node owner name).2.model.IsPlaced
        (builder.declareMethod resolver node owner name).1 := by
  obtain ⟨first, typed⟩ := slotsOf_closes resolver closed (node.childrenAs .parameter)
  have declaredToo := first.declared owner declared
  have added : Model.Closes _ (Model.addMethod _ owner name _ (.node node.id)).2 :=
    Model.addMethod_closes first.closed declaredToo.lt typed fun _ => declaredToo
  exact ⟨first.trans added, Model.addMethod_isPlaced added declaredToo⟩

theorem record_closes (sound : builder.IsSound) {statement : Statement}
    (referred : ∀ type ∈ statement.references, type < builder.model.types.length) :
    Closes builder (builder.record statement) := by
  rw [record]
  split
  · next id current =>
      exact Model.addStatement_closes sound.closed referred (sound.currentMethod id current)
  · exact .refl sound.closed

theorem openScope_closes (sound : builder.IsSound) (condition : String) :
    Closes builder (builder.openScope condition) := by
  rw [openScope]
  split
  · have opened := sound.withFrame
      { builder.frame with openScopes := builder.frame.openScopes + 1 }
    exact record_closes opened (by rintro type ⟨⟩)
  · exact .refl sound.closed

theorem closeScope_closes (sound : builder.IsSound) : Closes builder builder.closeScope := by
  rw [closeScope]
  split
  · exact .refl sound.closed
  · next outer _ =>
      have closed := sound.withFrame { builder.frame with openScopes := outer }
      exact record_closes closed (by rintro type ⟨⟩)

theorem closeScopes_closes (count : Nat) (sound : builder.IsSound) :
    Closes builder (closeScopes count builder) := by
  induction count generalizing builder with
  | zero => exact .refl sound.closed
  | succ count ih =>
      have closes := closeScope_closes sound
      exact closes.trans (ih ((closeScope_keeps builder).isSound closes sound))

theorem apply_closes (sound : builder.IsSound) (action : ScopeAction) :
    Closes builder (builder.apply action) := by
  cases action with
  | openScope condition => exact openScope_closes sound condition
  | closeScope => exact closeScope_closes sound

theorem applyAll_closes (sound : builder.IsSound) (actions : List ScopeAction) :
    Closes builder (builder.applyAll actions) := by
  induction actions generalizing builder with
  | nil => exact .refl sound.closed
  | cons action rest ih =>
      have closes := apply_closes sound action
      exact closes.trans (ih ((apply_keeps builder action).isSound closes sound))

theorem closes_endCase (sound : builder.IsSound) : Closes builder builder.endCase := by
  rw [endCase]
  split
  · exact .refl sound.closed
  · next guard outer _ =>
      have guarded : (builder.withGuard guard.endCase.2 outer).IsSound := sound.withFrame _
      exact applyAll_closes guarded _

theorem startCase_closes (sound : builder.IsSound) (label : String) (hasBody : Bool) :
    Closes builder (builder.startCase label hasBody) := by
  rw [startCase]
  split
  · exact .refl sound.closed
  · next guard outer _ =>
      have guarded : (builder.withGuard (guard.startCase label hasBody).2 outer).IsSound :=
        sound.withFrame _
      exact applyAll_closes guarded _

theorem exitCase_closes (sound : builder.IsSound) (isBreak : Bool) :
    Closes builder (builder.exitCase isBreak) := by
  rw [exitCase]
  split
  · exact .refl sound.closed
  · split
    · exact closes_endCase sound
    · exact .refl sound.closed
    · exact .refl sound.closed

theorem leaveSwitch_closes (sound : builder.IsSound) : Closes builder builder.leaveSwitch := by
  rw [leaveSwitch]
  split
  · exact .refl sound.closed
  · next guard outer _ =>
      exact applyAll_closes (sound.withFrame { builder.frame with switches := outer }) _

theorem intern_isSound (sound : builder.IsSound) (name : String) :
    (builder.intern name).2.IsSound :=
  (Keeps.of_registers (intern_mentions builder name).registers).isSound
    (Model.intern_closes sound.closed name).1 sound

theorem construct_closes (resolver : Resolver) (sound : builder.IsSound) (node : Node) :
    Closes builder (builder.construct resolver node) := by
  rw [construct]
  split
  · next name known =>
      obtain ⟨interned, below⟩ := Model.intern_closes sound.closed name
      have constructed := Model.constructor_closes interned.closed below
      have mentions := Model.constructor_mentions (builder.intern name).2.model
        (builder.intern name).1
      have keeps := Keeps.of_registers (Mentions.of_model mentions).registers
      have soundToo := keeps.isSound constructed (intern_isSound sound name)
      dsimp only
      split
      · refine (interned.trans constructed).trans (record_closes soundToo fun type refers => ?_)
        obtain rfl := List.mem_singleton.mp refers
        exact Nat.lt_of_lt_of_le below mentions.toGrows.types_length_le
      · exact interned.trans constructed
  · exact .refl sound.closed

theorem invoke_closes (resolver : Resolver) (sound : builder.IsSound) (node : Node)
    (select : String) : Closes builder (builder.invoke resolver node select) := by
  rw [invoke]
  split
  · next name known =>
      obtain ⟨interned, below⟩ := Model.intern_closes sound.closed name
      refine interned.trans (record_closes (intern_isSound sound name) fun type refers => ?_)
      obtain rfl := List.mem_singleton.mp refers
      exact below
  · exact .refl sound.closed

theorem useVariable_closes (resolver : Resolver) (sound : builder.IsSound) (node : Node)
    (name : String) : Closes builder (builder.useVariable resolver node name) := by
  rw [useVariable]
  split
  · exact .refl sound.closed
  · split
    · exact .refl sound.closed
    · next typeName known =>
        obtain ⟨typed, below⟩ := Model.intern_closes sound.closed typeName
        have soundToo := intern_isSound sound typeName
        dsimp only
        split
        · exact typed
        · next ownerName knownToo =>
            obtain ⟨owned, belowToo⟩ := Model.intern_closes typed.closed ownerName
            refine (typed.trans owned).trans
              (record_closes (intern_isSound soundToo ownerName) fun type refers => ?_)
            rcases List.mem_cons.mp refers with rfl | refers
            · exact belowToo
            · obtain rfl := List.mem_singleton.mp refers
              have mentions := intern_mentions (builder.intern typeName).2 ownerName
              exact Nat.lt_of_lt_of_le below mentions.model.toGrows.types_length_le

theorem visitLeaf_closes (resolver : Resolver) (sound : builder.IsSound) (node : Node) :
    Closes builder (visitLeaf resolver node builder) := by
  rw [visitLeaf]
  split
  · exact Model.addImport_closes sound.closed _
  · exact exitCase_closes sound true
  · exact useVariable_closes resolver sound node _
  · exact .refl sound.closed

/-- Below a node the state is sound again. -/
theorem opening_closes (opening : Opening resolver node builder inside leaving)
    (sound : builder.IsSound) : Closes builder inside ∧ inside.IsSound := by
  have same (keeps : Keeps builder inside) (closes : Closes builder inside) :
      Closes builder inside ∧ inside.IsSound := ⟨closes, keeps.isSound closes sound⟩
  cases opening with
  | namedClass qualified kind named =>
      obtain ⟨closes, declared⟩ := declareClass_closes resolver sound.closed node qualified
      refine ⟨closes, closes.closed, ?_, by rintro id ⟨⟩⟩
      rintro type ⟨⟩
      exact declared
  | anonymousClass kind =>
      exact ⟨.refl sound.closed, sound.closed, sound.currentClass, sound.currentMethod⟩
  | @method name owner kind owned =>
      have declared := sound.isDeclared_methodOwner owned
      obtain ⟨closes, placed⟩ := declareMethod_closes resolver sound.closed node declared name
      refine ⟨closes, closes.closed, fun type current => ?_, ?_⟩
      · have registers := declareMethod_registers resolver builder node owner name
        have kept : (builder.declareMethod resolver node owner name).2.currentClass = some type :=
          current
        rw [registers.same] at kept
        exact closes.declared type (sound.currentClass type kept)
      · rintro id ⟨⟩
        exact placed
  | ownerlessMethod _ _ | lambda _ => exact ⟨.refl sound.closed, sound.withFrame _⟩
  | nesting label labelled =>
      have closes := openScope_closes sound label
      exact ⟨closes, ((openScope_keeps builder label).isSound closes sound).withFrame _⟩
  | switch kind => exact ⟨.refl sound.closed, sound.withFrame _⟩
  | caseLabel kind => exact same (startCase_keeps builder _ _) (startCase_closes sound _ _)
  | returnExit kind | plain kind => exact ⟨.refl sound.closed, sound⟩
  | creation kind =>
      exact same (notes_keeps (construct_notes ..)) (construct_closes resolver sound node)
  | invocation kind =>
      exact same (notes_keeps (invoke_notes ..)) (invoke_closes resolver sound node _)

/-- Leaving a node keeps the model closed. -/
theorem leaving_closes (opening : Opening resolver node builder inside leaving)
    (sound : visited.IsSound) : Closes visited (leaving visited) := by
  cases opening with
  | namedClass _ _ _ => exact .refl sound.closed
  | anonymousClass _ =>
      have lowered : IsSound { visited with anonymousDepth := visited.anonymousDepth - 1 } :=
        ⟨sound.closed, sound.currentClass, sound.currentMethod⟩
      exact closeScopes_closes visited.frame.openScopes lowered
  | method _ _ _ | ownerlessMethod _ _ | lambda _ =>
      exact closeScopes_closes visited.frame.openScopes sound
  | nesting _ _ =>
      have closed (frame : Frame) : Closes visited (visited.withFrame frame).closeScope :=
        closeScope_closes (sound.withFrame frame)
      exact closed _
  | switch _ => exact leaveSwitch_closes sound
  | caseLabel _ =>
      split
      · exact closes_endCase sound
      · exact .refl sound.closed
  | returnExit _ => exact exitCase_closes sound false
  | creation _ | invocation _ | plain _ => exact .refl sound.closed

theorem visitChild_closes {child : Node}
    (each : ∀ {builder : Builder}, builder.IsSound → Closes builder (visit resolver child builder))
    (sound : builder.IsSound) : Closes builder (visitChild resolver child builder) := by
  unfold visitChild enterRole leaveRole
  split
  · have entered : builder.enterArgument.IsSound := sound.withFrame _
    exact each entered
  · exact each sound

/-- A visit keeps the model closed, wherever it starts. -/
theorem visit_closes (resolver : Resolver) (node : Node) (sound : builder.IsSound) :
    Closes builder (visit resolver node builder) := by
  induction node using Node.inductionOnChildren generalizing builder with
  | step node ih =>
      cases descended : node.kind.isDescended with
      | true =>
          rw [visit_eq_leave resolver builder descended]
          have opening := opening_of_isDescended resolver builder descended
          obtain ⟨entered, soundInside⟩ := opening_closes opening sound
          have children : Closes (enter resolver node builder)
              (visitAll resolver node.children (enter resolver node builder)) := by
            refine visitAll_related IsSound closes_self Closes.trans ?_ soundInside
            intro child member builder sound
            have closes := visitChild_closes (ih child member) sound
            exact ⟨closes,
              (visitChild_keeps (visit_keeps resolver child) builder).isSound closes sound⟩
          have keeps := visitAll_keeps resolver node.children (enter resolver node builder)
          have soundVisited := keeps.isSound children soundInside
          exact (entered.trans children).trans (leaving_closes opening soundVisited)
      | false =>
          rw [visit_eq_visitLeaf resolver builder descended]
          exact visitLeaf_closes resolver sound node

theorem initial_isSound (resolver : Resolver) (path : String) :
    (initial resolver path).IsSound where
  closed :=
    { names := List.nodup_nil
      ofTypes := by rintro entry ⟨⟩
      ofMethods := by rintro method ⟨⟩
      listed := by rintro owner ⟨⟩
      placed := by rintro method ⟨⟩ }
  currentClass := by rintro type ⟨⟩
  currentMethod := by rintro id ⟨⟩

end Builder

/-- The model of a unit is closed. -/
theorem Model.ofUnit_closed (resolver : Resolver) (root : Node) (path : String) :
    (Model.ofUnit resolver root path).Closed :=
  (Builder.visit_closes resolver root (Builder.initial_isSound resolver path)).closed

end JavaStructure
