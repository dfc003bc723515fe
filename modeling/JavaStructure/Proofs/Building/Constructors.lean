/-
# Which types get constructors

A type gets a constructor where the walk comes to a declaration of one, and where it comes to a
construction while the type has none. What the walk comes to is read off the tree in pre-order;
whether a type ends up with a declared constructor, and whether with a synthesized one, is then a
matter of that list alone. Nothing is assumed about the ids of the nodes.
-/

import JavaStructure.Proofs.Building.Definitions
import JavaStructure.Proofs.Building.Signatures
import JavaStructure.Proofs.Model.Constructors

namespace JavaStructure

open Syntax (Node Kind)

variable {resolver : Resolver} {around : Option String} {node reached : Node} {name : String}

namespace Syntax.Node

/-- The nodes that a walk comes to, in pre-order, each with the qualified name of the innermost
class around it. -/
def walked (resolver : Resolver) (around : Option String) : Node → List (Option String × Node)
  | node@⟨_, kind, _, _, _, children⟩ =>
      (around, node) ::
        if kind.isDescended then walkedAll (classBelow resolver around node) children else []
where
  /-- The nodes of some trees, tree by tree. -/
  walkedAll (around : Option String) : List Node → List (Option String × Node)
    | [] => []
    | child :: rest => child.walked resolver around ++ walkedAll around rest

theorem walked_eq (resolver : Resolver) (around : Option String) (node : Node) :
    node.walked resolver around =
      (around, node) ::
        if node.kind.isDescended then
          walked.walkedAll resolver (classBelow resolver around node) node.children
        else [] := by
  obtain ⟨id, kind, role, text, line, children⟩ := node
  rw [walked]

theorem mem_walkedAll {entry : Option String × Node} {nodes : List Node} :
    entry ∈ walked.walkedAll resolver around nodes ↔
      ∃ node ∈ nodes, entry ∈ node.walked resolver around := by
  induction nodes with
  | nil => simp [walked.walkedAll]
  | cons node rest ih => simp [walked.walkedAll, ih]

end Syntax.Node

/-- What a walk comes to is what is listed, wherever the walk starts. -/
theorem exists_reaches_iff_mem_walked (resolver : Resolver) (around : Option String)
    (builder : Builder) :
    (∃ state, Builder.Reaches resolver node builder reached state) ↔
      ∃ place, (place, reached) ∈ node.walked resolver around := by
  induction node using Node.inductionOnChildren generalizing around builder with
  | step node ih =>
      rw [Node.walked_eq]
      constructor
      · rintro ⟨state, reaches⟩
        cases reaches with
        | self => exact ⟨around, List.mem_cons_self⟩
        | inside before child after descended children onward =>
            have member : child ∈ node.children := by simp [children]
            obtain ⟨place, listed⟩ :=
              (ih child member (classBelow resolver around node) _).mp ⟨state, onward⟩
            rw [if_pos descended]
            exact ⟨place, List.mem_cons_of_mem _ (Node.mem_walkedAll.mpr ⟨child, member, listed⟩)⟩
      · rintro ⟨place, listed⟩
        rcases List.mem_cons.mp listed with same | below
        · obtain rfl : reached = node := congrArg Prod.snd same
          exact ⟨builder, .self⟩
        · split at below
          · next descended =>
              obtain ⟨child, member, listed⟩ := Node.mem_walkedAll.mp below
              obtain ⟨before, after, children⟩ := List.append_of_mem member
              obtain ⟨state, onward⟩ := (ih child member _ (Builder.enterRole child
                (Builder.visitAll resolver before (Builder.enter resolver node builder)))).mpr
                  ⟨place, listed⟩
              exact ⟨state, .inside before child after descended children onward⟩
          · cases below

/-- A construction of the type of a name. -/
def Constructs (resolver : Resolver) (name : String) (entry : Option String × Node) : Prop :=
  entry.2.kind = .creation ∧ resolver.typeName resolver.packageName entry.2 = some name

/-- A declaration of a constructor in the class of a name. -/
def DeclaresConstructor (name : String) (entry : Option String × Node) : Prop :=
  entry.2.kind = .methodDecl Syntax.constructorName ∧ entry.1 = some name

instance (resolver : Resolver) (name : String) (entry : Option String × Node) :
    Decidable (Constructs resolver name entry) :=
  inferInstanceAs (Decidable (_ ∧ _))

instance (name : String) (entry : Option String × Node) :
    Decidable (DeclaresConstructor name entry) :=
  inferInstanceAs (Decidable (_ ∧ _))

/-- Some construction of a type comes before all declarations of a constructor of it. -/
def IsConstructedFirst (resolver : Resolver) (name : String) :
    List (Option String × Node) → Prop
  | [] => False
  | entry :: rest =>
      Constructs resolver name entry ∨
        (¬ DeclaresConstructor name entry ∧ IsConstructedFirst resolver name rest)

theorem Constructs.not_declares {entry : Option String × Node}
    (constructs : Constructs resolver name entry) : ¬ DeclaresConstructor name entry := by
  intro declares
  have kind := constructs.1.symm.trans declares.1
  cases kind

theorem isConstructedFirst_append (front back : List (Option String × Node)) :
    IsConstructedFirst resolver name (front ++ back) ↔
      IsConstructedFirst resolver name front ∨
        (¬ ∃ entry ∈ front, DeclaresConstructor name entry) ∧
          IsConstructedFirst resolver name back := by
  induction front with
  | nil => simp [IsConstructedFirst]
  | cons entry rest ih =>
      rw [List.cons_append, IsConstructedFirst, IsConstructedFirst, ih]
      simp only [List.mem_cons, exists_eq_or_imp, not_or]
      tauto

/-- What is constructed is constructed first, or a constructor is declared. -/
theorem isConstructedFirst_or_declares {entries : List (Option String × Node)}
    {entry : Option String × Node} (inside : entry ∈ entries)
    (constructs : Constructs resolver name entry) :
    IsConstructedFirst resolver name entries ∨
      ∃ declaration ∈ entries, DeclaresConstructor name declaration := by
  induction entries with
  | nil => cases inside
  | cons first rest ih =>
      rw [IsConstructedFirst]
      rcases List.mem_cons.mp inside with rfl | later
      · exact .inl (.inl constructs)
      · by_cases declares : DeclaresConstructor name first
        · exact .inr ⟨first, List.mem_cons_self, declares⟩
        · rcases ih later with early | ⟨declaration, member, declaresToo⟩
          · exact .inl (.inr ⟨declares, early⟩)
          · exact .inr ⟨declaration, List.mem_cons_of_mem _ member, declaresToo⟩

/-- Where no declaration follows a construction, a type is constructed first exactly if it is
constructed and declares no constructor. -/
theorem isConstructedFirst_iff {entries : List (Option String × Node)}
    (ordered : entries.Pairwise fun earlier later =>
      Constructs resolver name earlier → ¬ DeclaresConstructor name later) :
    IsConstructedFirst resolver name entries ↔
      (¬ ∃ entry ∈ entries, DeclaresConstructor name entry) ∧
        ∃ entry ∈ entries, Constructs resolver name entry := by
  induction entries with
  | nil => simp [IsConstructedFirst]
  | cons first rest ih =>
      obtain ⟨head, tail⟩ := List.pairwise_cons.mp ordered
      rw [IsConstructedFirst, ih tail]
      simp only [List.mem_cons, exists_eq_or_imp, not_or]
      constructor
      · rintro (constructs | ⟨undeclared, rest⟩)
        · refine ⟨⟨constructs.not_declares, ?_⟩, .inl constructs⟩
          rintro ⟨later, member, declares⟩
          exact head later member constructs declares
        · exact ⟨⟨undeclared, rest.1⟩, .inr rest.2⟩
      · rintro ⟨⟨undeclared, none⟩, constructs | later⟩
        · exact .inl constructs
        · exact .inr ⟨undeclared, none, later⟩

/-- Between two models a type gets a declared constructor by a declaration among some entries, and
a synthesized one where it is constructed first and had no declared one. -/
structure Tallies (resolver : Resolver) (name : String) (entries : List (Option String × Node))
    (before after : Model) : Prop where
  declared : after.HasConstructor name true ↔
    before.HasConstructor name true ∨ ∃ entry ∈ entries, DeclaresConstructor name entry
  synthesized : after.HasConstructor name false ↔
    before.HasConstructor name false ∨
      (¬ before.HasConstructor name true ∧ IsConstructedFirst resolver name entries)

namespace Tallies

variable {before middle after : Model} {front back entries : List (Option String × Node)}

theorem trans (first : Tallies resolver name front before middle)
    (second : Tallies resolver name back middle after) :
    Tallies resolver name (front ++ back) before after where
  declared := by
    rw [second.declared, first.declared, or_assoc]
    simp only [List.mem_append, or_and_right, exists_or]
  synthesized := by
    calc after.HasConstructor name false
      _ ↔ middle.HasConstructor name false ∨
          (¬ middle.HasConstructor name true ∧ IsConstructedFirst resolver name back) :=
        second.synthesized
      _ ↔ (before.HasConstructor name false ∨
            (¬ before.HasConstructor name true ∧ IsConstructedFirst resolver name front)) ∨
          (¬ (before.HasConstructor name true ∨ ∃ entry ∈ front, DeclaresConstructor name entry) ∧
            IsConstructedFirst resolver name back) := by
        rw [first.synthesized, first.declared]
      _ ↔ before.HasConstructor name false ∨
          (¬ before.HasConstructor name true ∧
            IsConstructedFirst resolver name (front ++ back)) := by
        rw [isConstructedFirst_append, or_assoc, not_or, and_assoc, ← and_or_left]

/-- Methods that stay the same have the same constructors. -/
theorem of_same (closed : before.Closed) (same : before.SameMethods after)
    (undeclared : ∀ entry ∈ entries, ¬ DeclaresConstructor name entry)
    (unconstructed : ∀ entry ∈ entries, ¬ Constructs resolver name entry) :
    Tallies resolver name entries before after where
  declared := by
    rw [same.hasConstructor_iff closed]
    refine (or_iff_left ?_).symm
    rintro ⟨entry, inside, declares⟩
    exact undeclared entry inside declares
  synthesized := by
    have unbuilt : ¬ IsConstructedFirst resolver name entries := by
      intro first
      induction entries with
      | nil => exact first
      | cons entry rest ih =>
          rcases first with constructs | ⟨-, later⟩
          · exact unconstructed entry List.mem_cons_self constructs
          · exact ih (fun entry inside => undeclared entry (List.mem_cons_of_mem _ inside))
              (fun entry inside => unconstructed entry (List.mem_cons_of_mem _ inside)) later
    rw [same.hasConstructor_iff closed]
    simp [unbuilt]

theorem nil_trans (first : Tallies resolver name [] before middle)
    (second : Tallies resolver name back middle after) : Tallies resolver name back before after :=
  first.trans second

theorem trans_nil (first : Tallies resolver name front before middle)
    (second : Tallies resolver name [] middle after) :
    Tallies resolver name front before after := by
  simpa using first.trans second

/-- A declared method is tallied as the declaration that it is. -/
theorem addMethod (closed : before.Closed) {owner : TypeId} {ownerName : String}
    (named : before.nameOf owner = some ownerName) {methodName : String}
    (kind : node.kind = .methodDecl methodName) (parameters : List Slot) :
    Tallies resolver name [(some ownerName, node)] before
      (before.addMethod owner methodName parameters (.node node.id)).2 where
  declared := by
    rw [Model.hasConstructor_addMethod closed named]
    simp [DeclaresConstructor, kind, Origin.node?, eq_comm]
  synthesized := by
    rw [Model.hasConstructor_addMethod closed named]
    simp [IsConstructedFirst, Constructs, kind, Origin.node?]

/-- A search for a constructor is tallied as the construction that asks for it. -/
theorem constructor (closed : before.Closed) {owner : TypeId} {typeName : String}
    (named : before.nameOf owner = some typeName) (kind : node.kind = .creation)
    (known : resolver.typeName resolver.packageName node = some typeName) :
    Tallies resolver name [(around, node)] before (before.constructor owner).2 where
  declared := by
    rw [Model.hasConstructor_constructor closed named]
    simp [DeclaresConstructor, kind]
  synthesized := by
    rw [Model.hasConstructor_constructor closed named]
    simp only [IsConstructedFirst, Constructs, kind, known, Option.some.injEq, true_and, and_false,
      or_false]
    constructor
    · rintro (had | ⟨rfl, undeclared⟩)
      · exact .inl had
      · exact .inr ⟨undeclared, rfl⟩
    · rintro (had | ⟨undeclared, rfl⟩)
      · exact .inl had
      · exact .inr ⟨rfl, undeclared⟩

end Tallies

namespace Builder

variable {builder before middle after inside visited : Builder} {leaving : Builder → Builder}

/-- Statements are recorded in the open method, and frames replaced; nothing else is done. -/
inductive Records (before : Builder) : Builder → Prop
  | refl : Records before before
  | record {middle : Builder} (records : Records before middle) (statement : Statement) :
      Records before (middle.record statement)
  | withFrame {middle : Builder} (records : Records before middle) (frame : Frame) :
      Records before (middle.withFrame frame)

namespace Records

theorem trans (first : Records before middle) (second : Records middle after) :
    Records before after := by
  induction second with
  | refl => exact first
  | record _ statement ih => exact ih.record statement
  | withFrame _ frame ih => exact ih.withFrame frame

theorem currentMethod (records : Records before after) :
    after.currentMethod = before.currentMethod := by
  induction records with
  | refl => rfl
  | record _ statement ih => exact (record_keeps _ statement).currentMethod.trans ih
  | withFrame _ frame ih => exact ih

theorem sameMethods (records : Records before after) : before.model.SameMethods after.model := by
  induction records with
  | refl => exact .refl _
  | @record middle _ statement ih =>
      refine ih.trans ?_
      rw [Builder.record]
      split
      · exact .addStatement ..
      · exact .refl _
  | withFrame _ frame ih => exact ih

/-- The open method stands for a declaration, so no other is given statements. -/
theorem isModest (records : Records before after) (modest : before.model.IsModest)
    (declared : ∀ id, before.currentMethod = some id → (before.model.nodeOf id).isSome) :
    after.model.IsModest := by
  induction records with
  | refl => exact modest
  | @record middle records statement ih =>
      rw [Builder.record]
      split
      · next id current =>
          refine ih.addStatement ?_ statement
          obtain ⟨node, known⟩ :=
            Option.isSome_iff_exists.mp (declared id (records.currentMethod ▸ current))
          rw [records.sameMethods.toGrows.nodeOf known]
          rfl
      · exact ih
  | withFrame _ frame ih => exact ih

end Records

theorem openScope_records (builder : Builder) (condition : String) :
    Records builder (builder.openScope condition) := by
  rw [openScope]
  split
  · exact (Records.refl.withFrame _).record _
  · exact .refl

theorem closeScope_records (builder : Builder) : Records builder builder.closeScope := by
  rw [closeScope]
  split
  · exact .refl
  · exact (Records.refl.withFrame _).record _

theorem closeScopes_records (count : Nat) (builder : Builder) :
    Records builder (closeScopes count builder) := by
  induction count generalizing builder with
  | zero => exact .refl
  | succ count ih => exact (closeScope_records builder).trans (ih _)

theorem applyAll_records (actions : List ScopeAction) (builder : Builder) :
    Records builder (builder.applyAll actions) := by
  induction actions generalizing builder with
  | nil => exact .refl
  | cons action rest ih =>
      cases action with
      | openScope condition => exact (openScope_records builder condition).trans (ih _)
      | closeScope => exact (closeScope_records builder).trans (ih _)

theorem endCase_records (builder : Builder) : Records builder builder.endCase := by
  rw [endCase]
  split
  · exact .refl
  · exact (Records.refl.withFrame _).trans (applyAll_records ..)

theorem startCase_records (builder : Builder) (label : String) (hasBody : Bool) :
    Records builder (builder.startCase label hasBody) := by
  rw [startCase]
  split
  · exact .refl
  · exact (Records.refl.withFrame _).trans (applyAll_records ..)

theorem exitCase_records (builder : Builder) (isBreak : Bool) :
    Records builder (builder.exitCase isBreak) := by
  rw [exitCase]
  split
  · exact .refl
  · split
    · exact endCase_records builder
    · exact .withFrame .refl _
    · exact .refl

theorem leaveSwitch_records (builder : Builder) : Records builder builder.leaveSwitch := by
  rw [leaveSwitch]
  split
  · exact .refl
  · exact (Records.refl.withFrame _).trans (applyAll_records ..)

/-- Leaving a node records statements where the visit of the children ended. -/
theorem leaving_records (opening : Opening resolver node builder inside leaving)
    (visited : Builder) :
    ∃ start written : Builder, start.model = visited.model ∧
      start.currentMethod = visited.currentMethod ∧ Records start written ∧
      (leaving visited).model = written.model := by
  have directly {written : Builder} (records : Records visited written) :
      ∃ start written' : Builder, start.model = visited.model ∧
        start.currentMethod = visited.currentMethod ∧ Records start written' ∧
        written.model = written'.model :=
    ⟨visited, written, rfl, rfl, records, rfl⟩
  cases opening with
  | namedClass _ _ _ => exact ⟨visited, visited, rfl, rfl, .refl, rfl⟩
  | anonymousClass _ =>
      exact ⟨{ visited with anonymousDepth := visited.anonymousDepth - 1 }, _, rfl, rfl,
        closeScopes_records .., rfl⟩
  | method _ _ _ => exact ⟨visited, _, rfl, rfl, closeScopes_records .., rfl⟩
  | ownerlessMethod _ _ | lambda _ =>
      exact ⟨visited, _, rfl, rfl, closeScopes_records .., rfl⟩
  | nesting _ _ => exact directly ((Records.refl.withFrame _).trans (closeScope_records _))
  | switch _ => exact directly (leaveSwitch_records visited)
  | caseLabel _ =>
      split
      · exact directly (endCase_records visited)
      · exact directly .refl
  | returnExit _ => exact directly (exitCase_records visited false)
  | creation _ | invocation _ | plain _ => exact directly .refl

theorem slotOf_methods (resolver : Resolver) (builder : Builder) (node : Node) :
    (builder.slotOf resolver node).2.model.methods = builder.model.methods := by
  rw [slotOf]
  split
  · split
    · exact Model.methods_intern ..
    · rfl
  · rfl

theorem slotsOf_methods (resolver : Resolver) (builder : Builder) (nodes : List Node) :
    (builder.slotsOf resolver nodes).2.model.methods = builder.model.methods := by
  induction nodes generalizing builder with
  | nil => rfl
  | cons node rest ih => exact (ih _).trans (slotOf_methods resolver builder node)

theorem foldl_methods {α : Type} {step : Builder → α → Builder}
    (same : ∀ builder item, (step builder item).model.methods = builder.model.methods)
    (items : List α) (builder : Builder) :
    (items.foldl step builder).model.methods = builder.model.methods := by
  induction items generalizing builder with
  | nil => rfl
  | cons item rest ih => exact (ih _).trans (same builder item)

theorem relate_methods (resolver : Resolver) (type : TypeId) (kind : RelationKind)
    (builder : Builder) (mentioned : Node) :
    (builder.relate resolver type kind mentioned).model.methods = builder.model.methods := by
  rw [relate]
  split
  · exact Model.methods_intern ..
  · rfl

/-- A class is declared without its methods. -/
theorem declareClass_methods (resolver : Resolver) (builder : Builder) (node : Node)
    (name : String) :
    (builder.declareClass resolver node name).2.model.methods = builder.model.methods := by
  have members (builder : Builder) (type : TypeId) (nodes : List Node) :
      (builder.addMembers resolver type nodes).model.methods = builder.model.methods := by
    apply foldl_methods
    intro builder node
    have slot := slotOf_methods resolver builder node
    split <;> next found taken => rw [taken] at slot; exact slot
  refine (members ..).trans ((foldl_methods ?_ ..).trans ((foldl_methods ?_ ..).trans ?_))
  · exact relate_methods resolver _ _
  · exact relate_methods resolver _ _
  · exact Model.methods_intern ..

/-- The state of a walk that is about to come to a node below a class: sound, and modest, with a
method open only if it stands for a declaration. -/
structure Poised (resolver : Resolver) (around : Option String) (builder : Builder) : Prop where
  sound : builder.IsSound
  owned : OwnedBy around builder
  packageName : builder.model.moduleInfo.packageName = resolver.packageName
  modest : builder.model.IsModest
  declared : ∀ id, builder.currentMethod = some id → (builder.model.nodeOf id).isSome

/-- What keeps the outline of a poised state and leaves the model modest ends in one. -/
theorem Keeps.poised (keeps : Keeps before after) (closes : Closes before after)
    (modest : after.model.IsModest) (poised : Poised resolver around before) :
    Poised resolver around after where
  sound := keeps.isSound closes poised.sound
  owned := keeps.ownedBy poised.owned
  packageName := keeps.grows.packageName.trans poised.packageName
  modest := modest
  declared id current := by
    rw [keeps.currentMethod] at current
    obtain ⟨node, known⟩ := Option.isSome_iff_exists.mp (poised.declared id current)
    rw [keeps.grows.nodeOf known]
    rfl

theorem Poised.of_model {model : Model} (poised : Poised resolver around builder)
    (grows : builder.model.Grows model) (closes : builder.model.Closes model)
    (modest : model.IsModest) : Poised resolver around (builder.withModel model) := by
  have keeps : Keeps builder (builder.withModel model) := ⟨rfl, grows⟩
  exact keeps.poised closes modest poised

/-- Steps that only record are tallied as nothing. -/
theorem Poised.records (poised : Poised resolver around before) (records : Records before after)
    (name : String) :
    Tallies resolver name [] before.model after.model ∧ after.model.IsModest :=
  ⟨.of_same poised.sound.closed records.sameMethods (by simp) (by simp),
    records.isModest poised.modest poised.declared⟩

/-- A type that is mentioned gets no method. -/
theorem Poised.intern (poised : Poised resolver around builder) (typeName : String) :
    builder.model.SameMethods (builder.intern typeName).2.model ∧
      Poised resolver around (builder.intern typeName).2 := by
  have grows := (Model.intern_mentions builder.model typeName).toGrows
  have same := Model.methods_intern builder.model typeName
  exact ⟨.of_methods_eq grows same,
    poised.of_model grows (Model.intern_closes poised.sound.closed typeName).1
      (poised.modest.of_methods_eq same)⟩

theorem Poised.invoke (poised : Poised resolver around builder) (node : Node) (select : String) :
    builder.model.SameMethods (builder.invoke resolver node select).model ∧
      (builder.invoke resolver node select).model.IsModest := by
  rw [Builder.invoke]
  split
  · next typeName known =>
      obtain ⟨same, poisedToo⟩ := poised.intern typeName
      have records {statement : Statement} : Records (builder.intern typeName).2
          ((builder.intern typeName).2.record statement) := .record .refl _
      exact ⟨same.trans records.sameMethods, records.isModest poisedToo.modest poisedToo.declared⟩
  · exact ⟨.refl _, poised.modest⟩

theorem Poised.useVariable (poised : Poised resolver around builder) (node : Node)
    (name : String) :
    builder.model.SameMethods (builder.useVariable resolver node name).model ∧
      (builder.useVariable resolver node name).model.IsModest := by
  rw [Builder.useVariable]
  split
  · exact ⟨.refl _, poised.modest⟩
  · split
    · exact ⟨.refl _, poised.modest⟩
    · next typeName known =>
        obtain ⟨same, poisedToo⟩ := poised.intern typeName
        dsimp only
        split
        · exact ⟨same, poisedToo.modest⟩
        · next ownerName knownToo =>
            obtain ⟨sameToo, poisedLast⟩ := poisedToo.intern ownerName
            have records {statement : Statement} :
                Records ((builder.intern typeName).2.intern ownerName).2
                  (((builder.intern typeName).2.intern ownerName).2.record statement) :=
              .record .refl _
            exact ⟨(same.trans sameToo).trans records.sameMethods,
              records.isModest poisedLast.modest poisedLast.declared⟩

/-- A construction is tallied as one, whether or not it is recorded. -/
theorem construct_tallies (poised : Poised resolver around builder)
    (kind : node.kind = .creation) :
    (∀ name, Tallies resolver name [(around, node)] builder.model
        (builder.construct resolver node).model) ∧
      (builder.construct resolver node).model.IsModest := by
  have packageName := poised.packageName
  cases known : builder.typeName resolver node with
  | none =>
      have same : builder.construct resolver node = builder := by simp [construct, known]
      rw [typeName, packageName] at known
      rw [same]
      refine ⟨fun name => .of_same poised.sound.closed (.refl _) ?_ ?_, poised.modest⟩
      · rintro entry inside ⟨declaration, -⟩
        rw [List.mem_singleton.mp inside, kind] at declaration
        cases declaration
      · rintro entry inside ⟨-, found⟩
        rw [List.mem_singleton.mp inside, known] at found
        cases found
  | some constructed =>
      obtain ⟨same, poisedToo⟩ := poised.intern constructed
      obtain ⟨-, below⟩ := Model.intern_closes poised.sound.closed constructed
      have closed := poisedToo.sound.closed
      have built : Poised resolver around ((builder.intern constructed).2.withModel
          ((builder.intern constructed).2.model.constructor (builder.intern constructed).1).2) :=
        poisedToo.of_model (Model.constructor_mentions ..).toGrows
          (Model.constructor_closes closed below) (poisedToo.modest.constructor closed _)
      have records : Records ((builder.intern constructed).2.withModel
          ((builder.intern constructed).2.model.constructor (builder.intern constructed).1).2)
            (builder.construct resolver node) := by
        simp only [construct, known]
        split
        · exact .record .refl _
        · exact .refl
      have modest := (built.records records constructed).2
      rw [typeName, packageName] at known
      refine ⟨fun name => ?_, modest⟩
      have asked : Tallies resolver name [(around, node)] (builder.intern constructed).2.model _ :=
        .constructor closed (Model.nameOf_intern builder.model constructed) kind known
      have mentioned : Tallies resolver name [] builder.model _ :=
        .of_same poised.sound.closed same (by simp) (by simp)
      exact mentioned.nil_trans (asked.trans_nil (built.records records name).1)

/-- Whatever neither constructs nor declares is tallied as nothing, as long as the methods stay. -/
theorem Poised.passes {after : Model} (poised : Poised resolver around builder)
    (same : builder.model.SameMethods after) (unconstructed : node.kind ≠ .creation)
    (undeclared : ∀ methodName, around.isSome → node.kind ≠ .methodDecl methodName)
    (name : String) : Tallies resolver name [(around, node)] builder.model after := by
  refine .of_same poised.sound.closed same ?_ ?_
  · rintro entry inside ⟨declaration, owned⟩
    rw [List.mem_singleton.mp inside] at declaration owned
    obtain rfl : around = some name := owned
    exact undeclared _ rfl declaration
  · rintro entry inside ⟨construction, -⟩
    rw [List.mem_singleton.mp inside] at construction
    exact unconstructed construction

/-- Entering a node is tallied as the node. The method that it opens stands for the node. -/
theorem enter_tallies (poised : Poised resolver around builder) (node : Node) :
    (∀ name, Tallies resolver name [(around, node)] builder.model
        (enter resolver node builder).model) ∧
      (enter resolver node builder).model.IsModest ∧
      ∀ id, (enter resolver node builder).currentMethod = some id →
        ((enter resolver node builder).model.nodeOf id).isSome := by
  have quiet {after : Builder} (records : Records builder after)
      (unconstructed : node.kind ≠ .creation)
      (undeclared : ∀ methodName, node.kind ≠ .methodDecl methodName) :
      (∀ name, Tallies resolver name [(around, node)] builder.model after.model) ∧
        after.model.IsModest ∧
        ∀ id, after.currentMethod = some id → (after.model.nodeOf id).isSome := by
    refine ⟨poised.passes records.sameMethods unconstructed fun name _ => undeclared name,
      records.isModest poised.modest poised.declared, fun id current => ?_⟩
    obtain ⟨node, known⟩ :=
      Option.isSome_iff_exists.mp (poised.declared id (records.currentMethod ▸ current))
    rw [records.sameMethods.toGrows.nodeOf known]
    rfl
  unfold enter
  cases kind : node.kind with
  | classDecl className flavor =>
      dsimp only
      cases declaredClassName builder.model.moduleInfo.packageName className with
      | none =>
          have entered := quiet (Records.refl.withFrame {}) (by simp [kind]) (by simp [kind])
          exact entered
      | some qualified =>
          have same := declareClass_methods resolver builder node qualified
          have grows := (declareClass_mentions resolver builder node qualified).model.toGrows
          refine ⟨poised.passes (.of_methods_eq grows same) (by simp [kind]) (by simp [kind]),
            poised.modest.of_methods_eq same, ?_⟩
          rintro id ⟨⟩
  | methodDecl methodName =>
      dsimp only
      cases owned : builder.methodOwner with
      | none =>
          obtain rfl := poised.owned.eq_none owned
          exact ⟨poised.passes (.refl _) (by simp [kind]) (by simp), poised.modest, poised.declared⟩
      | some owner =>
          obtain ⟨ownerName, rfl, named⟩ := poised.owned.exists_name owned
          have slots := slotsOf_methods resolver builder (node.childrenAs .parameter)
          have mentions := (slotsOf_mentions resolver builder (node.childrenAs .parameter)).model
          have closed := (slotsOf_closes resolver poised.sound.closed
            (node.childrenAs .parameter)).1.closed
          have same : builder.model.SameMethods _ := .of_methods_eq mentions.toGrows slots
          refine ⟨fun name => ?_, (poised.modest.of_methods_eq slots).addMethod .., ?_⟩
          · have mentioned : Tallies resolver name [] builder.model _ :=
              .of_same poised.sound.closed same (by simp) (by simp)
            exact mentioned.nil_trans (.addMethod closed (mentions.toGrows.nameOf named) kind _)
          · rintro id ⟨⟩
            exact Option.isSome_of_mem (Model.nodeOf_addMethod ..)
  | conditional | forLoop | whileLoop | doWhileLoop | enhancedFor =>
      exact quiet (.withFrame (openScope_records builder _) _) (by simp [kind]) (by simp [kind])
  | switch => exact quiet (.withFrame .refl _) (by simp [kind]) (by simp [kind])
  | caseLabel label hasBody _ =>
      exact quiet (startCase_records builder _ hasBody) (by simp [kind]) (by simp [kind])
  | creation =>
      obtain ⟨tallies, modest⟩ := construct_tallies poised kind
      have keeps := notes_keeps (construct_notes resolver builder node)
      have closes := construct_closes resolver poised.sound node
      exact ⟨tallies, modest, (keeps.poised closes modest poised).declared⟩
  | invocation select =>
      obtain ⟨same, modest⟩ := poised.invoke node select
      have keeps := notes_keeps (invoke_notes resolver builder node select)
      have closes := invoke_closes resolver poised.sound node select
      exact ⟨poised.passes same (by simp [kind]) (by simp [kind]), modest,
        (keeps.poised closes modest poised).declared⟩
  | lambda => exact quiet (.withFrame .refl {}) (by simp [kind]) (by simp [kind])
  | _ => exact quiet .refl (by simp [kind]) (by simp [kind])

theorem enter_poised (poised : Poised resolver around builder)
    (descended : node.kind.isDescended = true) :
    Poised resolver (classBelow resolver around node) (enter resolver node builder) := by
  obtain ⟨-, modest, declared⟩ := enter_tallies poised node
  exact ⟨(opening_closes (opening_of_isDescended resolver builder descended) poised.sound).2,
    enter_ownedBy poised.owned poised.packageName,
    (enter_packageName resolver builder descended).trans poised.packageName, modest, declared⟩

/-- A node that is visited as a whole is tallied as nothing. -/
theorem visitLeaf_tallies (poised : Poised resolver around builder)
    (leaf : node.kind.isDescended = false) :
    (∀ name, Tallies resolver name [(around, node)] builder.model
        (visitLeaf resolver node builder).model) ∧
      (visitLeaf resolver node builder).model.IsModest := by
  have quiet {after : Model} (same : builder.model.SameMethods after) (modest : after.IsModest) :
      (∀ name, Tallies resolver name [(around, node)] builder.model after) ∧ after.IsModest := by
    refine ⟨poised.passes same ?_ fun name _ => ?_, modest⟩ <;>
      · intro kind
        simp [kind, Kind.isDescended] at leaf
  unfold visitLeaf
  split
  · exact quiet (.of_methods_eq (Model.addImport_mentions ..).toGrows rfl)
      (poised.modest.of_methods_eq rfl)
  · have records := exitCase_records builder true
    exact quiet records.sameMethods (records.isModest poised.modest poised.declared)
  · obtain ⟨same, modest⟩ := poised.useVariable node _
    exact quiet same modest
  · exact quiet (.refl _) poised.modest

/-- The visits of children are tallied as what the walk comes to below them, child by child. -/
theorem visitAll_tallies {children : List Node} (poised : Poised resolver around builder)
    (each : ∀ child ∈ children, ∀ {builder : Builder}, Poised resolver around builder →
      (∀ name, Tallies resolver name (child.walked resolver around) builder.model
          (visit resolver child builder).model) ∧
        (visit resolver child builder).model.IsModest) :
    (∀ name, Tallies resolver name (Node.walked.walkedAll resolver around children) builder.model
        (visitAll resolver children builder).model) ∧
      Poised resolver around (visitAll resolver children builder) := by
  induction children generalizing builder with
  | nil =>
      rw [visitAll_nil]
      exact ⟨fun name => .of_same poised.sound.closed (.refl _) (by simp [Node.walked.walkedAll])
        (by simp [Node.walked.walkedAll]), poised⟩
  | cons child rest ih =>
      have entered : Poised resolver around (enterRole child builder) := by
        unfold enterRole
        split
        · exact ⟨poised.sound.withFrame _, poised.owned, poised.packageName, poised.modest,
            poised.declared⟩
        · exact poised
      obtain ⟨first, modest⟩ := each child List.mem_cons_self entered
      rw [enterRole_model, ← visitChild_model] at first
      rw [← visitChild_model] at modest
      have keeps := visitChild_keeps (visit_keeps resolver child) builder
      have closes := visitChild_closes (visit_closes resolver child) poised.sound
      obtain ⟨later, ends⟩ := ih (keeps.poised closes modest poised) fun child member =>
        each child (List.mem_cons_of_mem _ member)
      rw [visitAll_cons, Node.walked.walkedAll]
      exact ⟨fun name => (first name).trans (later name), ends⟩

/-- A visit is tallied as what the walk comes to. -/
theorem visit_tallies (resolver : Resolver) (node : Node)
    (poised : Poised resolver around builder) :
    (∀ name, Tallies resolver name (node.walked resolver around) builder.model
        (visit resolver node builder).model) ∧
      (visit resolver node builder).model.IsModest := by
  induction node using Node.inductionOnChildren generalizing around builder with
  | step node ih =>
      rw [Node.walked_eq]
      cases descended : node.kind.isDescended with
      | false =>
          rw [visit_eq_visitLeaf resolver builder descended]
          exact visitLeaf_tallies poised descended
      | true =>
          rw [visit_eq_leave resolver builder descended, if_pos rfl]
          obtain ⟨own, -, -⟩ := enter_tallies poised node
          obtain ⟨below, ends⟩ := visitAll_tallies (enter_poised poised descended)
            fun child member {_} => ih child member
          obtain ⟨start, written, startModel, startMethod, records, model⟩ :=
            leaving_records (opening_of_isDescended resolver builder descended)
              (visitAll resolver node.children (enter resolver node builder))
          have left : Model.SameMethods _ written.model := startModel ▸ records.sameMethods
          have modest := records.isModest (startModel ▸ ends.modest)
            (startModel ▸ startMethod ▸ ends.declared)
          rw [model]
          refine ⟨fun name => (own name).trans ((below name).trans_nil ?_), modest⟩
          exact .of_same ends.sound.closed left (by simp) (by simp)

theorem initial_poised (resolver : Resolver) (path : String) :
    Poised resolver none (initial resolver path) where
  sound := initial_isSound resolver path
  owned := rfl
  packageName := rfl
  modest := ⟨by rintro method ⟨⟩, List.nodup_nil⟩
  declared := by rintro id ⟨⟩

end Builder

/-- A model says of the type of a name what its methods say. -/
theorem Model.Closed.hasConstructor_iff {model : Model} (closed : model.Closed) {type : TypeId}
    (named : model.nameOf type = some name) (isDeclared : Bool) :
    model.HasConstructor name isDeclared ↔
      ∃ method ∈ model.methodsOf type, method.name = Syntax.constructorName ∧
        method.origin.node?.isSome = isDeclared := by
  constructor
  · rintro ⟨header, inside, isConstructor, origin, owned⟩
    obtain ⟨method, member, rfl⟩ := List.mem_map.mp inside
    rw [← Model.lookup_eq_some_iff closed.names] at named owned
    have sameOwner : method.owner = type := Option.some.inj (owned.symm.trans named)
    exact ⟨method, closed.mem_methodsOf_iff.mpr ⟨member, sameOwner⟩, isConstructor, origin⟩
  · rintro ⟨method, listed, isConstructor, origin⟩
    obtain ⟨member, rfl⟩ := closed.mem_methodsOf_iff.mp listed
    exact ⟨method.header, List.mem_map_of_mem member, isConstructor, origin, named⟩

theorem Origin.isSome_node?_iff (origin : Origin) :
    origin.node?.isSome = true ↔ origin ≠ .synthesized := by
  cases origin <;> simp [Origin.node?]

theorem Origin.isSome_node?_eq_false_iff (origin : Origin) :
    origin.node?.isSome = false ↔ origin = .synthesized := by
  cases origin <;> simp [Origin.node?]

/-- Every type that a walk comes to a construction of has a constructor. No type has two
synthesized ones, and a synthesized method is a constructor without parameters and statements.
Where no declaration of a constructor follows a construction of the same type, the types with a
synthesized constructor are those that are constructed and declare none. -/
theorem ofUnit_constructors (resolver : Resolver) (root : Node) (path : String) :
    let model := Model.ofUnit resolver root path
    let visited := root.walked resolver none
    (∀ construction state, Builder.Reaches resolver root (Builder.initial resolver path)
        construction state → construction.kind = .creation →
      ∀ name, resolver.typeName resolver.packageName construction = some name →
        ∃ type, model.nameOf type = some name ∧
          ∃ method ∈ model.methodsOf type, method.name = Syntax.constructorName) ∧
      (∀ type, ((model.methodsOf type).filter (·.origin = .synthesized)).length ≤ 1) ∧
      (∀ method ∈ model.methods, method.origin = .synthesized →
        method.name = Syntax.constructorName ∧ method.parameters = [] ∧
          method.statements = []) ∧
      ∀ type name, model.nameOf type = some name →
        (visited.Pairwise fun earlier later =>
          Constructs resolver name earlier → ¬ DeclaresConstructor name later) →
        ((∃ method ∈ model.methodsOf type, method.origin = .synthesized) ↔
          (¬ ∃ method ∈ model.methodsOf type, method.name = Syntax.constructorName ∧
              method.origin ≠ .synthesized) ∧
            ∃ entry ∈ visited, Constructs resolver name entry) := by
  intro model visited
  obtain ⟨tallies, modest⟩ :=
    Builder.visit_tallies resolver root (Builder.initial_poised resolver path)
  have closed : model.Closed := Model.ofUnit_closed resolver root path
  have empty (name : String) (isDeclared : Bool) :
      ¬ (Builder.initial resolver path).model.HasConstructor name isDeclared := by
    rintro ⟨header, inside, -⟩
    cases inside
  have declared (name : String) : model.HasConstructor name true ↔
      ∃ entry ∈ visited, DeclaresConstructor name entry :=
    (tallies name).declared.trans (or_iff_right (empty name true))
  have synthesized (name : String) : model.HasConstructor name false ↔
      IsConstructedFirst resolver name visited :=
    (tallies name).synthesized.trans
      ((or_iff_right (empty name false)).trans (and_iff_right (empty name true)))
  refine ⟨?_, modest.length_le_one closed, modest.plain, ?_⟩
  · intro construction state reaches kind name known
    obtain ⟨place, listed⟩ :=
      (exists_reaches_iff_mem_walked resolver none _).mp ⟨state, reaches⟩
    have constructs : Constructs resolver name (place, construction) := ⟨kind, known⟩
    obtain ⟨isDeclared, has⟩ : ∃ isDeclared, model.HasConstructor name isDeclared := by
      rcases isConstructedFirst_or_declares listed constructs with first | declares
      · exact ⟨false, (synthesized name).mpr first⟩
      · exact ⟨true, (declared name).mpr declares⟩
    obtain ⟨header, -, -, -, named⟩ := id has
    obtain ⟨method, inside, isConstructor, -⟩ := (closed.hasConstructor_iff named isDeclared).mp has
    exact ⟨_, named, method, inside, isConstructor⟩
  · intro type name named ordered
    have undeclared := closed.hasConstructor_iff named false
    have declaredToo := closed.hasConstructor_iff named true
    simp only [Origin.isSome_node?_eq_false_iff] at undeclared
    simp only [Origin.isSome_node?_iff] at declaredToo
    rw [← declaredToo, declared, ← isConstructedFirst_iff ordered, ← synthesized, undeclared]
    constructor
    · rintro ⟨method, inside, origin⟩
      have member := (closed.mem_methodsOf_iff.mp inside).1
      exact ⟨method, inside, (modest.plain method member origin).1, origin⟩
    · rintro ⟨method, inside, -, origin⟩
      exact ⟨method, inside, origin⟩

/-- A unit that constructs a type within an argument of the construction of the same type. -/
def gateUnit : Node :=
  .bare 0 .compilationUnit
    [.bare 1 (.classDecl "Gate" .classType)
      [.bare 2 (.methodDecl Syntax.constructorName) [],
      .bare 3 (.methodDecl "open")
        [.bare 4 .creation
          [{ Node.bare 5 (.identifier "Door" true) [] with role := some .identifier },
          { Node.bare 6 .creation
              [{ Node.bare 7 (.identifier "Door" true) [] with role := some .identifier }] with
            role := some .argument }]]]]

theorem gateUnit_constructors :
    let model := Model.ofUnit yardResolver gateUnit "Gate.java"
    model.nameOf 1 = some "estate.Door" ∧
      (∃ type, model.nameOf type = some "estate.Door" ∧
        ∃ method ∈ model.methodsOf type, method.name = Syntax.constructorName) ∧
      ∃ method ∈ model.methodsOf 1, method.origin = .synthesized := by
  intro model
  obtain ⟨constructed, -, -, exactly⟩ := ofUnit_constructors yardResolver gateUnit "Gate.java"
  have named : model.nameOf 1 = some "estate.Door" := by decide +kernel
  have ordered : (gateUnit.walked yardResolver none).Pairwise fun earlier later =>
      Constructs yardResolver "estate.Door" earlier →
        ¬ DeclaresConstructor "estate.Door" later := by
    decide +kernel
  have undeclared : ¬ ∃ method ∈ model.methodsOf 1, method.name = Syntax.constructorName ∧
      method.origin ≠ .synthesized := by
    decide +kernel
  have built : ∃ entry ∈ gateUnit.walked yardResolver none,
      Constructs yardResolver "estate.Door" entry := by
    decide +kernel
  obtain ⟨⟨place, construction⟩, listed, constructs⟩ := id built
  obtain ⟨state, reaches⟩ := (exists_reaches_iff_mem_walked yardResolver none
    (Builder.initial yardResolver "Gate.java")).mpr ⟨place, listed⟩
  exact ⟨named, constructed construction state reaches constructs.1 "estate.Door" constructs.2,
    (exactly 1 "estate.Door" named ordered).mpr ⟨undeclared, built⟩⟩

end JavaStructure
