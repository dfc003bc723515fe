/-
# Every entry is attributed

The walk leaves in each method the entries of the nodes that belong to it, in
pre-order, one for each. The state of the walk is related to the place it stands
at; each step of the walk then gives the model the entries of one node, and what
two visits give is what the first gives followed by what the second gives.
-/

import JavaStructure.Proofs.Building.CaseConditions
import JavaStructure.Proofs.Building.Emissions
import Mathlib.Data.List.Forall2

namespace JavaStructure

open Syntax (Node Kind)

variable {resolver : Resolver} {model : Model} {place : Place}
variable {emission : Emission} {statement : Statement}

/-- An entry goes on to be shown, as types keep their names. -/
theorem Shows.grows {before after : Model} (matching : Shows before emission statement)
    (grows : before.Grows after) : Shows after emission statement := by
  cases matching with
  | scope label => exact .scope label
  | caseScope front => exact .caseScope front
  | call known => exact .call (grows.nameOf known)
  | variableUse knownOwner knownType =>
      exact .variableUse (grows.nameOf knownOwner) (grows.nameOf knownType)

theorem Shows.closes_eq_false (matching : Shows model emission statement) :
    statement.closes = false := by
  cases matching <;> rfl

namespace Model

variable {before middle after : Model} {started : List Nat} {entries : List (Nat × Emission)}

/-- A model gets some declared methods and some entries, and nothing else that an
entry shows. -/
structure Receives (started : List Nat) (entries : List (Nat × Emission))
    (before after : Model) : Prop extends Grows before after where
  declaredNodes : after.declaredNodes = before.declaredNodes ++ started
  entriesOf : ∀ node, ∃ added, after.entriesOf node = before.entriesOf node ++ added ∧
    List.Forall₂ (Shows after) (attributedTo node entries) added

namespace Receives

/-- Nothing is received where declarations and entries stay the same. -/
theorem of_eq (grows : Grows before after)
    (declaredNodes : after.declaredNodes = before.declaredNodes)
    (entriesOf : ∀ node, after.entriesOf node = before.entriesOf node) :
    Receives [] [] before after := by
  refine ⟨grows, by simpa using declaredNodes, fun node => ⟨[], ?_, .nil⟩⟩
  rw [entriesOf, List.append_nil]

theorem refl (model : Model) : Receives [] [] model model :=
  of_eq (.refl model) rfl fun _ => rfl

theorem of_mentions (mentions : Mentions before after) : Receives [] [] before after :=
  of_eq mentions.toGrows mentions.declaredNodes mentions.toRegisters.entriesOf

theorem trans {later : List Nat} {back : List (Nat × Emission)}
    (first : Receives started entries before middle) (second : Receives later back middle after) :
    Receives (started ++ later) (entries ++ back) before after := by
  refine ⟨first.toGrows.trans second.toGrows, ?_, ?_⟩
  · rw [second.declaredNodes, first.declaredNodes, List.append_assoc]
  · intro node
    obtain ⟨added, appended, shown⟩ := first.entriesOf node
    obtain ⟨more, extended, shownToo⟩ := second.entriesOf node
    refine ⟨added ++ more, by rw [extended, appended, List.append_assoc], ?_⟩
    rw [attributedTo_append]
    exact List.rel_append (shown.imp fun _ _ matching => matching.grows second.toGrows) shownToo

/-- A step that gives the model nothing can be left out. -/
theorem trans_silent (first : Receives started entries before middle)
    (second : Receives [] [] middle after) : Receives started entries before after := by
  simpa using first.trans second

theorem silent_trans (first : Receives [] [] before middle)
    (second : Receives started entries middle after) : Receives started entries before after := by
  simpa using first.trans second

/-- The end of a scope is no entry. -/
theorem addStatement_closeScope (model : Model) (id : MethodId) :
    Receives [] [] model (model.addStatement id .closeScope) :=
  of_eq (addStatement_grows ..) (declaredNodes_addStatement ..)
    (entriesOf_addStatement_closeScope model id)

/-- A statement that shows an entry is that entry of the node its method is
declared at. -/
theorem addStatement (distinct : model.declaredNodes.Nodup) {id : MethodId} {node : Nat}
    (declared : model.nodeOf id = some node) (matching : Shows model emission statement) :
    Receives [] [(node, emission)] model (model.addStatement id statement) := by
  have grows := addStatement_grows model id statement
  refine ⟨grows, by simp [declaredNodes_addStatement], fun other => ⟨_,
    entriesOf_addStatement distinct declared matching.closes_eq_false other, ?_⟩⟩
  by_cases same : node = other
  · simpa [attributedTo, same] using matching.grows grows
  · simp [attributedTo, same]

/-- Declarations stay distinct as long as those that are started are new. -/
theorem nodup (receives : Receives started entries before after) {ids rest : List Nat}
    (fresh : (before.declaredNodes ++ (ids ++ rest)).Nodup) (sublist : started.Sublist ids) :
    (after.declaredNodes ++ rest).Nodup := by
  rw [receives.declaredNodes, List.append_assoc]
  exact fresh.sublist ((List.Sublist.refl _).append (sublist.append (.refl rest)))

/-- Declarations stay distinct where none is started. -/
theorem nodup_of_nil (receives : Receives [] entries before after)
    (distinct : before.declaredNodes.Nodup) : after.declaredNodes.Nodup := by
  rw [receives.declaredNodes, List.append_nil]
  exact distinct

end Receives

end Model

namespace Builder

variable {node : Node} {builder before after inside visited : Builder}
variable {leaving : Builder → Builder}

/-- A step that gives the model neither a declaration nor an entry. -/
abbrev Silent (before after : Builder) : Prop :=
  Model.Receives [] [] before.model after.model

theorem closeScope_silent (builder : Builder) : Silent builder builder.closeScope := by
  rw [closeScope]
  split
  · exact .refl _
  · rw [record]
    split
    · exact .addStatement_closeScope ..
    · exact .refl _

theorem closeScopes_silent (count : Nat) (builder : Builder) :
    Silent builder (closeScopes count builder) := by
  induction count generalizing builder with
  | zero => exact .refl _
  | succ count ih => exact (closeScope_silent builder).trans (ih _)

theorem applyAll_silent {actions : List ScopeAction}
    (closes : ∀ action ∈ actions, action = .closeScope) (builder : Builder) :
    Silent builder (builder.applyAll actions) := by
  induction actions generalizing builder with
  | nil => exact .refl _
  | cons action rest ih =>
      obtain ⟨rfl, closesRest⟩ := List.forall_mem_cons.mp closes
      exact (closeScope_silent builder).trans (ih closesRest _)

theorem endCase_closes (guard : CaseGuard) :
    ∀ action ∈ guard.endCase.1.toList, action = .closeScope := by
  rw [CaseGuard.endCase]
  split <;> simp

theorem endCase_silent (builder : Builder) : Silent builder builder.endCase := by
  rw [endCase]
  split
  · exact .refl _
  · next guard outer _ =>
      exact applyAll_silent (endCase_closes guard) (builder.withGuard guard.endCase.2 outer)

theorem exitCase_silent (builder : Builder) (isBreak : Bool) :
    Silent builder (builder.exitCase isBreak) := by
  rw [exitCase]
  split
  · exact .refl _
  · split
    · exact endCase_silent builder
    · exact .refl _
    · exact .refl _

theorem leaveSwitch_silent (builder : Builder) : Silent builder builder.leaveSwitch := by
  rw [leaveSwitch]
  split
  · exact .refl _
  · next guard outer _ =>
      exact applyAll_silent (endCase_closes guard)
        (builder.withFrame { builder.frame with switches := outer })

theorem leaveBody_silent (builder : Builder) (outer : Frame) :
    Silent builder (builder.leaveBody outer) :=
  closeScopes_silent builder.frame.openScopes builder

/-- Leaving a node adds no entry. -/
theorem leaving_silent (opening : Opening resolver node builder inside leaving)
    (visited : Builder) : Silent visited (leaving visited) := by
  cases opening with
  | namedClass _ _ _ => exact .refl _
  | anonymousClass _ =>
      exact leaveBody_silent { visited with anonymousDepth := visited.anonymousDepth - 1 } _
  | method _ _ _ => exact closeScopes_silent visited.frame.openScopes visited
  | ownerlessMethod _ _ | lambda _ => exact leaveBody_silent visited _
  | nesting _ _ =>
      have closed (frame : Frame) : Silent visited (visited.withFrame frame).closeScope :=
        closeScope_silent (visited.withFrame frame)
      exact closed _
  | switch _ => exact leaveSwitch_silent visited
  | caseLabel _ =>
      split
      · exact endCase_silent visited
      · exact .refl _
  | returnExit _ => exact exitCase_silent visited false
  | creation _ | invocation _ | plain _ => exact .refl _

/-- The state of the walk says of its surroundings what the place says. -/
structure At (resolver : Resolver) (place : Place) (builder : Builder) : Prop where
  packageName : builder.model.moduleInfo.packageName = resolver.packageName
  inNamedClass : builder.methodOwner.isSome = place.inNamedClass
  method : builder.currentMethod.map builder.model.nodeOf = place.method.map some
  subject : builder.frame.switches.head?.map (·.subject) = place.subject
  inArgument : decide (0 < builder.frame.argumentDepth) = place.inArgument

/-- The method of the place is the open one. -/
theorem At.nodeOf (here : At resolver place builder) {id : MethodId}
    (current : builder.currentMethod = some id) :
    ∃ method, builder.model.nodeOf id = some method ∧ place.method = some method := by
  have method := here.method
  rw [current] at method
  cases found : place.method with
  | none => simp [found] at method
  | some node => exact ⟨node, by simpa [found] using method, rfl⟩

theorem At.method_eq_none (here : At resolver place builder)
    (closed : builder.currentMethod = none) : place.method = none := by
  have method := here.method
  rw [closed] at method
  cases found : place.method with
  | none => rfl
  | some node => simp [found] at method

/-- A visit ends at the place where it started. -/
theorem Keeps.at (keeps : Keeps before after) (here : At resolver place before) :
    At resolver place after where
  packageName := keeps.grows.packageName.trans here.packageName
  inNamedClass := by
    rw [← here.inNamedClass]
    simp only [methodOwner, keeps.currentClass, keeps.anonymousDepth]
  method := by
    rw [← here.method, keeps.currentMethod]
    cases current : before.currentMethod with
    | none => rfl
    | some id =>
        obtain ⟨method, known, _⟩ := here.nodeOf current
        simp [known, keeps.grows.nodeOf known]
  subject := by
    rw [← here.subject]
    cases found : before.frame.switches with
    | nil => simp [keeps.switches_nil found]
    | cons guard outer =>
        obtain ⟨changed, retained, same⟩ := keeps.switches_cons found
        have subject := congrArg CaseGuard.subject same
        dsimp only [CaseGuard.atStart] at subject
        simp [retained, subject]
  inArgument := by rw [← here.inArgument, keeps.argumentDepth]

theorem entries_none (place : Place) : place.entries none = [] := by
  unfold Place.entries
  split <;> simp_all

/-- What is recorded is an entry of the method of the place. -/
theorem record_receives (here : At resolver place builder)
    (distinct : builder.model.declaredNodes.Nodup)
    (matching : Shows builder.model emission statement) :
    Model.Receives [] (place.entries (some emission)) builder.model
      (builder.record statement).model := by
  rw [record]
  cases current : builder.currentMethod with
  | none =>
      simp only [Place.entries, here.method_eq_none current]
      exact .refl _
  | some id =>
      obtain ⟨method, known, same⟩ := here.nodeOf current
      simp only [Place.entries, same]
      exact .addStatement distinct known matching

theorem openScope_receives (here : At resolver place builder)
    (distinct : builder.model.declaredNodes.Nodup) {condition : String}
    (matching : Shows builder.model emission (.openScope condition)) :
    Model.Receives [] (place.entries (some emission)) builder.model
      (builder.openScope condition).model := by
  cases current : builder.currentMethod with
  | none =>
      rw [openScope_of_none current]
      simp only [Place.entries, here.method_eq_none current]
      exact .refl _
  | some id =>
      rw [openScope_of_some current]
      have counted := withOpenScopes_keeps builder (builder.frame.openScopes + 1)
      exact record_receives (counted.at here) distinct matching

/-- The scope of a case ends with the term of the case. -/
theorem shows_caseScope (model : Model) (continued : Option String) (subject label : String) :
    Shows model (.caseScope subject label)
      (.openScope ("[" ++ continuedWith continued (subject ++ " == " ++ label) ++ "]")) := by
  cases continued with
  | none =>
      have shown : Shows model (.caseScope subject label)
          (.openScope ("[" ++ ("" ++ (subject ++ " == " ++ label)) ++ "]")) := .caseScope ""
      rwa [String.empty_append] at shown
  | some front =>
      have shown : Shows model (.caseScope subject label)
          (.openScope ("[" ++ (front ++ " || " ++ (subject ++ " == " ++ label)) ++ "]")) :=
        .caseScope (front ++ " || ")
      exact shown

/-- A label without a body only ever closes scopes. -/
theorem startCase_noBody_closes (guard : CaseGuard) (label : String) :
    ∀ action ∈ (guard.startCase label false).1, action = .closeScope := by
  obtain ⟨subject, condition, state, loopDepth, bodyDepth, endPending⟩ := guard
  cases endPending <;> cases state <;>
    simp [CaseGuard.startCase, CaseGuard.settle, CaseGuard.continueCase, CaseGuard.endCase,
      CaseGuard.scopeIsOpen]

/-- A label is an entry if it has a body and stands in a switch. -/
theorem startCase_receives (here : At resolver place builder)
    (distinct : builder.model.declaredNodes.Nodup) (label : String) (hasBody : Bool) :
    Model.Receives []
      (place.entries (if hasBody then place.subject.map (.caseScope · label) else none))
      builder.model (builder.startCase label hasBody).model := by
  have subject := here.subject
  rw [startCase]
  cases innermost : builder.frame.switches with
  | nil =>
      rw [innermost] at subject
      rw [← subject]
      cases hasBody <;> exact entries_none place ▸ .refl _
  | cons guard outer =>
      rw [innermost] at subject
      rw [← subject]
      cases hasBody with
      | false =>
          have closed := applyAll_silent (startCase_noBody_closes guard label)
            (builder.withGuard (guard.startCase label false).2 outer)
          exact entries_none place ▸ closed
      | true =>
          obtain ⟨closes, only, actions⟩ := guard.startCase_hasBody label
          have entered := (withGuard_keeps innermost (guard.startCase_atStart label true)).trans
            (applyAll_keeps _ closes)
          have closed := applyAll_silent only
            (builder.withGuard (guard.startCase label true).2 outer)
          have stillDistinct := closed.nodup_of_nil distinct
          have shown := shows_caseScope builder.model guard.continued guard.subject label
          have opened := openScope_receives (entered.at here) stillDistinct
            (shown.grows closed.toGrows)
          dsimp only
          rw [actions, applyAll, List.foldl_append]
          exact closed.silent_trans opened

theorem At.typeName (here : At resolver place builder) (node : Node) :
    builder.typeName resolver node = resolver.typeName resolver.packageName node := by
  rw [Builder.typeName, here.packageName]

theorem Mentions.silent (mentions : Mentions before after) : Silent before after :=
  .of_mentions mentions.model

/-- A mention that is then recorded is an entry. -/
theorem Mentions.record_receives (mentions : Mentions before after)
    (here : At resolver place before) (distinct : before.model.declaredNodes.Nodup)
    (matching : Shows after.model emission statement) :
    Model.Receives [] (place.entries (some emission)) before.model
      (after.record statement).model := by
  have kept := (Keeps.of_registers mentions.registers).at here
  have stillDistinct := mentions.silent.nodup_of_nil distinct
  exact mentions.silent.silent_trans (Builder.record_receives kept stillDistinct matching)

theorem construct_receives (here : At resolver place builder)
    (distinct : builder.model.declaredNodes.Nodup) (kind : node.kind = .creation) :
    Model.Receives [] (emitted resolver place node) builder.model
      (builder.construct resolver node).model := by
  simp only [emitted, emission?, kind, ← here.typeName, ← here.inArgument]
  rw [construct]
  cases builder.typeName resolver node with
  | none =>
      simp only [Option.map_none, ite_self, entries_none]
      exact .refl _
  | some name =>
      have constructed : Mentions builder ((builder.intern name).2.withModel
          ((builder.intern name).2.model.constructor (builder.intern name).1).2) :=
        (intern_mentions builder name).trans (.of_model (Model.constructor_mentions ..))
      have frame : ((builder.intern name).2.withModel
          ((builder.intern name).2.model.constructor (builder.intern name).1).2).frame =
            builder.frame := mentions_frame constructed
      have known := (Model.constructor_mentions (builder.intern name).2.model
        (builder.intern name).1).toGrows.nameOf (Model.nameOf_intern builder.model name)
      dsimp only
      rw [frame]
      by_cases outside : builder.frame.argumentDepth = 0
      · simp only [outside, Nat.lt_irrefl, decide_false, if_true, Option.map_some]
        exact constructed.record_receives here distinct (.call known)
      · have within : 0 < builder.frame.argumentDepth := Nat.pos_of_ne_zero outside
        simp only [outside, within, decide_true, if_true, if_false, entries_none]
        exact constructed.silent

theorem invoke_receives (here : At resolver place builder)
    (distinct : builder.model.declaredNodes.Nodup) {select : String}
    (kind : node.kind = .invocation select) :
    Model.Receives [] (emitted resolver place node) builder.model
      (builder.invoke resolver node select).model := by
  simp only [emitted, emission?, kind, ← here.typeName]
  rw [invoke]
  cases builder.typeName resolver node with
  | none =>
      simp only [Option.map_none, entries_none]
      exact .refl _
  | some name =>
      have known := Model.nameOf_intern builder.model name
      exact (intern_mentions builder name).record_receives here distinct (.call known)

theorem useVariable_receives (here : At resolver place builder)
    (distinct : builder.model.declaredNodes.Nodup) {name : String} {typePosition : Bool}
    (kind : node.kind = .identifier name typePosition) :
    Model.Receives [] (emitted resolver place node) builder.model
      (builder.useVariable resolver node name).model := by
  simp only [emitted, emission?, kind, ← here.typeName]
  rw [useVariable]
  cases current : builder.currentMethod with
  | none =>
      simp only [Place.entries, here.method_eq_none current]
      exact .refl _
  | some method =>
      cases builder.typeName resolver node with
      | none =>
          simp only [Option.bind_none, entries_none]
          exact .refl _
      | some typeName =>
          have typed := intern_mentions builder typeName
          cases resolver.variableOwner node with
          | none =>
              simp only [Option.bind_some, Option.map_none, entries_none]
              exact typed.silent
          | some ownerName =>
              have owned := intern_mentions (builder.intern typeName).2 ownerName
              have knownType :=
                owned.model.toGrows.nameOf (Model.nameOf_intern builder.model typeName)
              have knownOwner := Model.nameOf_intern (builder.intern typeName).2.model ownerName
              exact (typed.trans owned).record_receives here distinct
                (.variableUse knownOwner knownType)

/-- A method declaration is registered as one. -/
theorem declareMethod_receives (resolver : Resolver) (builder : Builder) (node : Node)
    (owner : TypeId) (name : String) (fresh : node.id ∉ builder.model.declaredNodes) :
    Model.Receives [node.id] [] builder.model
        (builder.declareMethod resolver node owner name).2.model ∧
      (builder.declareMethod resolver node owner name).2.model.nodeOf
        (builder.declareMethod resolver node owner name).1 = some node.id := by
  have slots := slotsOf_mentions resolver builder (node.childrenAs .parameter)
  have registers := declareMethod_registers resolver builder node owner name
  unfold declareMethod at *
  generalize builder.slotsOf resolver (node.childrenAs .parameter) = slotted at *
  obtain ⟨parameters, taken⟩ := slotted
  rw [← slots.model.declaredNodes] at fresh
  obtain ⟨position, methods⟩ := Model.addMethod_of_not_mem fresh owner name parameters
  refine ⟨⟨registers.model.toGrows, ?_, fun other => ⟨[], ?_, .nil⟩⟩, ?_⟩
  · rw [← slots.model.declaredNodes]
    simp only [withModel, Model.declaredNodes, methods]
    simp [Origin.node?]
  · rw [registers.model.entriesOf, List.append_nil]
  · simp only [withModel, Model.nodeOf, methods, position]
    simp [Origin.node?]

/-- A body of its own goes on with the method, and starts without switches and
arguments. -/
theorem At.enterBody (here : At resolver place builder) {below : Place}
    (inNamedClass : below.inNamedClass = place.inNamedClass) (method : below.method = place.method)
    (subject : below.subject = none) (inArgument : below.inArgument = false) :
    At resolver below builder.enterBody where
  packageName := here.packageName
  inNamedClass := here.inNamedClass.trans inNamedClass.symm
  method := by rw [method, ← here.method]; rfl
  subject := by rw [subject]; rfl
  inArgument := by rw [inArgument]; rfl

/-- A conditional or a loop is an entry, and its children stand at its place. -/
theorem below_of_scopeLabel {label : String} (labelled : scopeLabel node = some label) :
    declared place node = [] ∧ emission? resolver place node = some (.scope label) ∧
      place.below node = place := by
  cases kind : node.kind with
  | conditional | forLoop | whileLoop | doWhileLoop | enhancedFor =>
      simp [declared, emission?, Place.below, kind, labelled]
  | _ => simp [scopeLabel, kind] at labelled

/-- Plain nodes are no entries, and their children stand at their place. -/
theorem below_of_isPlain (plain : node.kind.isPlain = true) :
    declared place node = [] ∧ emission? resolver place node = none ∧ place.below node = place := by
  cases kind : node.kind <;> simp_all [Kind.isPlain, declared, emission?, Place.below]

/-- What entering a node gives the model, and the place that the children stand at. -/
theorem enter_receives (opening : Opening resolver node builder inside leaving)
    (here : At resolver place builder) (distinct : builder.model.declaredNodes.Nodup)
    (fresh : node.id ∉ builder.model.declaredNodes) :
    Model.Receives (declared place node) (emitted resolver place node) builder.model inside.model ∧
      At resolver (place.below node) inside := by
  cases opening with
  | @namedClass name flavor qualified kind named =>
      have mentions := declareClass_mentions resolver builder node qualified
      simp only [declared, emitted, emission?, Place.below, kind, entries_none, named, if_false]
      refine ⟨mentions.silent, ?_⟩
      exact
        { packageName := mentions.model.packageName.trans here.packageName
          inNamedClass := rfl
          method := rfl
          subject := rfl
          inArgument := rfl }
  | anonymousClass kind =>
      simp only [declared, emitted, emission?, Place.below, kind, entries_none, if_true]
      refine ⟨.refl _, ?_⟩
      exact
        { packageName := here.packageName
          inNamedClass := by simp [methodOwner]
          method := here.method
          subject := rfl
          inArgument := rfl }
  | @method name owner kind owned =>
      obtain ⟨received, known⟩ := declareMethod_receives resolver builder node owner name fresh
      have registers := declareMethod_registers resolver builder node owner name
      have inNamedClass : place.inNamedClass = true := by
        rw [← here.inNamedClass, owned]
        rfl
      simp only [declared, emitted, emission?, Place.below, kind, entries_none, inNamedClass,
        if_true]
      refine ⟨received, ?_⟩
      exact
        { packageName := registers.model.packageName.trans here.packageName
          inNamedClass := by
            have ownerKnown := here.inNamedClass
            rw [inNamedClass] at ownerKnown
            rw [registers.same]
            exact ownerKnown
          method := congrArg some known
          subject := rfl
          inArgument := rfl }
  | ownerlessMethod kind ownerless =>
      have inNamedClass : place.inNamedClass = false := by
        rw [← here.inNamedClass, ownerless]
        rfl
      simp only [declared, emitted, emission?, Place.below, kind, entries_none, inNamedClass,
        Bool.false_eq_true, if_false]
      exact ⟨.refl _, here.enterBody inNamedClass.symm rfl rfl rfl⟩
  | lambda kind =>
      simp only [declared, emitted, emission?, Place.below, kind, entries_none]
      exact ⟨.refl _, here.enterBody rfl rfl rfl rfl⟩
  | nesting label labelled =>
      obtain ⟨starts, emits, below⟩ := below_of_scopeLabel labelled
      have received := openScope_receives here distinct (.scope label)
      have opened := (openScope_keeps builder label).at here
      rw [starts, emitted, emits, below]
      exact ⟨received, opened.packageName, opened.inNamedClass, opened.method, opened.subject,
        opened.inArgument⟩
  | switch kind =>
      simp only [declared, emitted, emission?, Place.below, kind, entries_none]
      exact ⟨.refl _, here.packageName, here.inNamedClass, here.method, rfl, here.inArgument⟩
  | @caseLabel label hasBody arrow kind =>
      have received := startCase_receives here distinct (label.getD defaultLabel) hasBody
      have kept := startCase_keeps builder (label.getD defaultLabel) hasBody
      simp only [declared, emitted, emission?, Place.below, kind]
      exact ⟨received, kept.at here⟩
  | returnExit kind =>
      simp only [declared, emitted, emission?, Place.below, kind, entries_none]
      exact ⟨.refl _, here⟩
  | creation kind =>
      have received := construct_receives here distinct kind
      have kept := notes_keeps (construct_notes resolver builder node)
      simp only [declared, Place.below, kind]
      exact ⟨received, kept.at here⟩
  | @invocation select kind =>
      have received := invoke_receives here distinct kind
      have kept := notes_keeps (invoke_notes resolver builder node select)
      simp only [declared, Place.below, kind]
      exact ⟨received, kept.at here⟩
  | plain kind =>
      obtain ⟨starts, emits, below⟩ := below_of_isPlain kind
      rw [starts, emitted, emits, entries_none, below]
      exact ⟨.refl _, here⟩

/-- A node that is visited as a whole gives the model its own entry. -/
theorem visitLeaf_receives (leaf : node.kind.isDescended = false)
    (here : At resolver place builder) (distinct : builder.model.declaredNodes.Nodup) :
    Model.Receives (declared place node) (emitted resolver place node) builder.model
      (visitLeaf resolver node builder).model := by
  rw [visitLeaf]
  cases kind : node.kind with
  | packageDecl =>
      simp only [declared, emitted, emission?, kind, entries_none]
      exact .refl _
  | importDecl =>
      simp only [declared, emitted, emission?, kind, entries_none]
      exact .of_mentions (Model.addImport_mentions ..)
  | breakExit =>
      simp only [declared, emitted, emission?, kind, entries_none]
      exact exitCase_silent builder true
  | identifier name typePosition =>
      have received := useVariable_receives here distinct kind
      simpa only [declared, kind] using received
  | _ => simp [kind, Kind.isDescended] at leaf

/-- A child stands at the place of its role. -/
theorem enterRole_at (here : At resolver place builder) (child : Node) :
    At resolver (place.inRole child) (enterRole child builder) := by
  unfold enterRole Place.inRole
  split
  · next argument =>
      refine ⟨here.packageName, here.inNamedClass, here.method, here.subject, ?_⟩
      simp [enterArgument, withFrame, argument]
  · next other =>
      refine ⟨here.packageName, here.inNamedClass, here.method, here.subject, ?_⟩
      simp [here.inArgument, other]

/-- The visits of children give the model what the children yield, one after the
other. -/
theorem visitAll_receives {children : List Node} (here : At resolver place builder)
    (fresh : (builder.model.declaredNodes ++
      (Node.preorder.preorderAll children).map (·.id)).Nodup)
    (each : ∀ child ∈ children, ∀ {place : Place} {builder : Builder}, At resolver place builder →
      (builder.model.declaredNodes ++ child.preorder.map (·.id)).Nodup →
      Model.Receives (child.gather Kind.isDescended declared place)
        (child.gather Kind.isDescended (emitted resolver) place) builder.model
        (visit resolver child builder).model) :
    Model.Receives (Node.gather.gatherAll Kind.isDescended declared place children)
      (Node.gather.gatherAll Kind.isDescended (emitted resolver) place children) builder.model
      (visitAll resolver children builder).model := by
  induction children generalizing builder with
  | nil => simpa [Node.gather.gatherAll] using Model.Receives.refl builder.model
  | cons child rest ih =>
      rw [Node.preorder.preorderAll, List.map_append] at fresh
      rw [visitAll_cons, Node.gather.gatherAll, Node.gather.gatherAll]
      have freshChild :=
        fresh.sublist ((List.Sublist.refl _).append (List.sublist_append_left _ _))
      rw [← enterRole_model child] at freshChild
      have first := each child List.mem_cons_self (enterRole_at here child) freshChild
      rw [enterRole_model, ← visitChild_model] at first
      have kept := visitChild_keeps (visit_keeps resolver child) builder
      have freshRest := first.nodup fresh (gather_declared_sublist _ child _)
      exact first.trans (ih (kept.at here) freshRest fun later member =>
        each later (List.mem_cons_of_mem _ member))

/-- The visit of a tree whose nodes are new gives the model what the tree yields. -/
theorem visit_receives (resolver : Resolver) (node : Node) (here : At resolver place builder)
    (fresh : (builder.model.declaredNodes ++ node.preorder.map (·.id)).Nodup) :
    Model.Receives (node.gather Kind.isDescended declared place)
      (node.gather Kind.isDescended (emitted resolver) place) builder.model
      (visit resolver node builder).model := by
  induction node using Node.inductionOnChildren generalizing place builder with
  | step node ih =>
      rw [Node.preorder_eq, List.map_cons, ← List.singleton_append] at fresh
      have distinct : builder.model.declaredNodes.Nodup :=
        fresh.sublist (List.sublist_append_left _ _)
      have new : node.id ∉ builder.model.declaredNodes := by
        intro member
        exact (List.nodup_append.mp fresh).2.2 _ member _ (by simp) rfl
      rw [Node.gather_eq, Node.gather_eq]
      cases descended : node.kind.isDescended with
      | false =>
          rw [visit_eq_visitLeaf resolver builder descended]
          simpa using visitLeaf_receives descended here distinct
      | true =>
          rw [visit_eq_leave resolver builder descended, if_pos rfl, if_pos rfl]
          have opening := opening_of_isDescended resolver builder descended
          obtain ⟨entered, below⟩ := enter_receives opening here distinct new
          have freshBelow := entered.nodup fresh (declared_sublist place node)
          have children := visitAll_receives below freshBelow
            fun child member {_ _} => ih child member
          exact (entered.trans children).trans_silent (leaving_silent opening _)

theorem initial_at (resolver : Resolver) (path : String) :
    At resolver {} (initial resolver path) :=
  ⟨rfl, rfl, rfl, rfl, rfl⟩

end Builder

/-- In a tree with distinct node ids, the model holds a method for each declaration
that starts one, and the statements of that method, but for the ends of scopes, are
the entries of the nodes that belong to it: all of them, in pre-order, one each. -/
theorem ofUnit_attributes (resolver : Resolver) (root : Node) (path : String)
    (distinct : (root.preorder.map (·.id)).Nodup) :
    (Model.ofUnit resolver root path).declaredNodes = root.gather Kind.isDescended declared {} ∧
      ∀ method ∈ (Model.ofUnit resolver root path).methods, ∀ node, method.origin = .node node →
        List.Forall₂ (Shows (Model.ofUnit resolver root path))
          (attributedTo node (emissions Kind.isDescended resolver root))
          (method.statements.filter (· ≠ .closeScope)) := by
  have received := Builder.visit_receives resolver root (Builder.initial_at resolver path) distinct
  have declaredNodes : (Model.ofUnit resolver root path).declaredNodes =
      root.gather Kind.isDescended declared {} := received.declaredNodes
  refine ⟨declaredNodes, ?_⟩
  intro method member node origin
  have stillDistinct : (Model.ofUnit resolver root path).declaredNodes.Nodup := by
    rw [declaredNodes]
    exact distinct.sublist (gather_declared_sublist Kind.isDescended root {})
  obtain ⟨added, appended, shown⟩ := received.entriesOf node
  have entries : added = method.entries := by
    rw [← Model.entriesOf_of_mem stillDistinct member (by rw [origin]; rfl)]
    exact appended.symm
  rw [← Method.entries_eq_filter_ne, ← entries]
  exact shown

/-- A resolver that takes every name for a class, but for one variable. -/
def houseResolver : Resolver :=
  { packageName := ""
    lineCount := 0
    symbol := fun node =>
      some
        { kind := if node.name? = some "key" then .localVariable else .classSymbol
          name := ""
          qualifiedName := some "Door"
          enclosingType := some "House" }
    scope := fun _ => some { enclosingClass := some "House" } }

/-- A unit whose method contains a lambda and an anonymous class with a method. -/
def houseUnit : Node :=
  .bare 0 .compilationUnit
    [.bare 1 (.classDecl "House" .classType)
      [.bare 2 (.methodDecl "enter")
        [.bare 3 (.invocation "door.open")
          [.bare 4 .lambda [.bare 5 .conditional [.bare 6 (.identifier "key" false) []]]],
        .bare 7 .creation
          [{ Node.bare 8 (.identifier "Door" true) [] with role := some .identifier },
          .bare 9 (.classDecl "" .classType)
            [.bare 10 (.methodDecl "close") [.bare 11 (.invocation "lock") []]]]]]]

theorem houseUnit_attributes :
    ∃ method ∈ (Model.ofUnit houseResolver houseUnit "House.java").methods,
      method.origin = .node 2 ∧
        List.Forall₂ (Shows (Model.ofUnit houseResolver houseUnit "House.java"))
          [.call "open" "House", .scope "[]", .variableUse "key" "House" "Door",
            .call "<init>" "Door", .call "lock" "House"]
          (method.statements.filter (· ≠ .closeScope)) := by
  have entries : attributedTo 2 (emissions Kind.isDescended houseResolver houseUnit) =
      [.call "open" "House", .scope "[]", .variableUse "key" "House" "Door",
        .call "<init>" "Door", .call "lock" "House"] := by
    decide +kernel
  obtain ⟨method, member, origin⟩ :
      ∃ method ∈ (Model.ofUnit houseResolver houseUnit "House.java").methods,
        method.origin = .node 2 := by
    decide +kernel
  refine ⟨method, member, origin, ?_⟩
  rw [← entries]
  have distinct : (houseUnit.preorder.map (·.id)).Nodup := by decide
  exact (ofUnit_attributes houseResolver houseUnit "House.java" distinct).2 method member 2 origin

/-- A unit with a conditional below a break. -/
def hiddenUnit : Node :=
  .bare 0 .compilationUnit
    [.bare 1 (.classDecl "House" .classType)
      [.bare 2 (.methodDecl "enter") [.bare 3 .breakExit [.bare 4 .conditional []]]]]

/-- Breaks, imports, packages and identifiers are visited as a whole, so that not
every node of a tree is an entry. -/
theorem hiddenUnit_not_attributed :
    ¬ ∀ (resolver : Resolver) (root : Node) (path : String), (root.preorder.map (·.id)).Nodup →
      ∀ method ∈ (Model.ofUnit resolver root path).methods, ∀ node, method.origin = .node node →
        List.Forall₂ (Shows (Model.ofUnit resolver root path))
          (attributedTo node (emissions (fun _ => true) resolver root))
          (method.statements.filter (· ≠ .closeScope)) := by
  intro everywhere
  have methods : (Model.ofUnit .silent hiddenUnit "House.java").methods =
      [{ owner := 0, name := "enter", origin := .node 2, parameters := [] }] := rfl
  have shown := everywhere .silent hiddenUnit "House.java" (by decide) _
    (by rw [methods]; exact List.mem_singleton_self _) 2 rfl
  have entries : attributedTo 2 (emissions (fun _ => true) .silent hiddenUnit) =
      [.scope "[]"] := by
    decide +kernel
  rw [entries] at shown
  cases shown

end JavaStructure
