/-
# What sketches are like

Every construct is described by its sketch. Two things are said of all sketches, one construct
after the other. Whatever they leave pending is inside the node that they describe, so a node
is lowered as deep as it goes. And they are regular: an identifier has no parts, and a call has
nothing in front of what it is made on.
-/

import JavaStructure.Proofs.Grammar.Sketches
import JavaStructure.Proofs.Syntax.Trails
import Mathlib.Data.List.Basic

namespace JavaStructure.Grammar

open Syntax (Kind Role)

namespace Node

/-- One node is inside another one. -/
inductive Below : Node → Node → Prop
  | child {child node : Node} (member : child ∈ node.children) : Below child node
  | deeper {leaf child node : Node} (member : child ∈ node.children) (below : Below leaf child) :
      Below leaf node

namespace Below

variable {leaf middle node : Node}

theorem trans (inner : Below leaf middle) (outer : Below middle node) : Below leaf node := by
  induction outer with
  | child member => exact .deeper member inner
  | deeper member _ ih => exact .deeper member ih

theorem part (member : leaf ∈ node.parts) : Below leaf node :=
  .child (mem_children_of_mem_parts member)

theorem childOf {field : String} (found : node.childOf field = some leaf) : Below leaf node :=
  .child (mem_children_of_childOf found)

theorem size_lt (below : Below leaf node) : leaf.size < node.size := by
  induction below with
  | child member => exact size_lt_of_mem_children member
  | deeper member _ ih => exact Nat.lt_trans ih (size_lt_of_mem_children member)

end Below

end Node

namespace Sketch

/-- A part that is pending in a role other than that of a receiver. -/
def IsBesideReceiver (part : Sketch) : Prop :=
  ∃ role node, part = .pending (some role) node ∧ role ≠ .object

/-- The sketches of regular nodes. -/
inductive Regular : Sketch → Prop
  | pending (role : Option Role) (node : Node) : Regular (.pending role node)
  | identifier {kind : Kind} (isIdentifier : kind.isIdentifier = true) (role : Option Role)
      (text : String) (line : Nat) : Regular (.built kind role text line [])
  | call {kind : Kind} (isCall : kind.isCall = true) (role : Option Role) (text : String)
      (line : Nat) (receiver : Option Node) {others : List Sketch}
      (beside : ∀ part ∈ others, part.IsBesideReceiver) :
      Regular (.built kind role text line
        (receiver.toList.map (.pending (some .object)) ++ others))
  | other {kind : Kind} (noIdentifier : kind.isIdentifier = false) (noCall : kind.isCall = false)
      (role : Option Role) (text : String) (line : Nat) {parts : List Sketch}
      (regular : ∀ part ∈ parts, Regular part) : Regular (.built kind role text line parts)

/-- A sketch that is built for anything but an identifier. -/
structure IsConstruct (sketch : Sketch) : Prop where
  regular : sketch.Regular
  built : ∃ kind role text line parts,
    sketch = .built kind role text line parts ∧ kind.isIdentifier = false

/-- All pending leaves are inside a node. -/
inductive PendsBelow (node : Node) : Sketch → Prop
  | pending (role : Option Role) {leaf : Node} (below : leaf.Below node) :
      PendsBelow node (.pending role leaf)
  | built (kind : Syntax.Kind) (role : Option Role) (text : String) (line : Nat)
      {parts : List Sketch} (each : ∀ part ∈ parts, PendsBelow node part) :
      PendsBelow node (.built kind role text line parts)

/-- What is inside a node is inside any node around it. -/
theorem PendsBelow.widen {node inner : Node} {sketch : Sketch} (below : inner.Below node)
    (pends : PendsBelow inner sketch) : PendsBelow node sketch := by
  induction pends with
  | pending role deeper => exact .pending role (deeper.trans below)
  | built kind role text line _ ih => exact .built kind role text line ih

/-- A sketch of a regular node that leaves pending only what is inside a node. -/
structure Fits (node : Node) (sketch : Sketch) : Prop where
  regular : sketch.Regular
  pends : PendsBelow node sketch

/-- The same of a sketch that is built for anything but an identifier. -/
structure Constructs (node : Node) (sketch : Sketch) : Prop where
  construct : sketch.IsConstruct
  pends : PendsBelow node sketch

variable {node inner source leaf : Node} {sketch : Sketch} {kind : Kind} {parts : List Sketch}

theorem Constructs.fits (constructs : Constructs node sketch) : Fits node sketch :=
  ⟨constructs.construct.regular, constructs.pends⟩

/-- The sketch of a node that is neither an identifier nor a call. -/
theorem Constructs.built (noIdentifier : kind.isIdentifier = false)
    (noCall : kind.isCall = false) (role : Option Role) (text : String) (line : Nat)
    (fit : ∀ part ∈ parts, Fits node part) :
    Constructs node (.built kind role text line parts) where
  construct := ⟨.other noIdentifier noCall role text line fun part member =>
    (fit part member).regular, _, _, _, _, _, rfl, noIdentifier⟩
  pends := .built kind role text line fun part member => (fit part member).pends

/-- The same, in the place of a grammar node. -/
theorem Constructs.of (source : Node) (noIdentifier : kind.isIdentifier = false)
    (noCall : kind.isCall = false) (role : Option Role) (fit : ∀ part ∈ parts, Fits node part) :
    Constructs node (.of source kind role parts) :=
  .built noIdentifier noCall role _ _ fit

/-- The sketch of a call, with what it is made on in front of all else. -/
theorem Constructs.call (source : Node) (isCall : kind.isCall = true) (role : Option Role)
    (receiver : Option Node) (inside : ∀ object, receiver = some object → object.Below node)
    {others : List Sketch} (beside : ∀ part ∈ others, part.IsBesideReceiver)
    (fit : ∀ part ∈ others, PendsBelow node part) :
    Constructs node (.of source kind role
      (receiver.toList.map (.pending (some .object)) ++ others)) where
  construct := by
    have noIdentifier : kind.isIdentifier = false := by
      cases kind <;> first | rfl | cases isCall
    exact ⟨.call isCall role _ _ receiver beside, _, _, _, _, _, rfl, noIdentifier⟩
  pends := by
    refine .built _ _ _ _ (List.forall_mem_append.mpr ⟨fun part member => ?_, fit⟩)
    obtain ⟨object, found, rfl⟩ := List.mem_map.mp member
    exact .pending _ (inside object (Option.mem_toList.mp found))

/-- A sketch shows only what is made of the nodes inside. -/
theorem PendsBelow.fill_congr {lower lowerToo : Option Role → Node → List Syntax.Node}
    (same : ∀ role leaf, leaf.Below node → lower role leaf = lowerToo role leaf)
    (pends : PendsBelow node sketch) : sketch.fill lower = sketch.fill lowerToo := by
  induction pends with
  | pending role below => exact same role _ below
  | built kind role text line _ ih =>
      rw [fill, fill, fillAll_eq_flatMap, fillAll_eq_flatMap, List.flatMap_congr ih]

namespace Fits

theorem pending (role : Option Role) (below : leaf.Below node) :
    Fits node (.pending role leaf) :=
  ⟨.pending role leaf, .pending role below⟩

theorem widen (below : inner.Below node) (fits : Fits inner sketch) : Fits node sketch :=
  ⟨fits.regular, fits.pends.widen below⟩

end Fits

end Sketch

namespace Node

open Sketch (Fits Constructs PendsBelow)

variable {node : Node}

/-- Leaves that are inside a node fit it, in whatever role they are pending. -/
theorem fits_of_below {leaves : List Node} (role : Option Role)
    (below : ∀ leaf ∈ leaves, leaf.Below node) :
    ∀ part ∈ leaves.map (Sketch.pending role), Fits node part := by
  intro part member
  obtain ⟨leaf, inside, rfl⟩ := List.mem_map.mp member
  exact .pending role (below leaf inside)

theorem pendingParts_fits (node : Node) (role : Option Role) :
    ∀ part ∈ node.pendingParts role, Fits node part :=
  fits_of_below role fun _ => .part

theorem pendingField_fits (node : Node) (field : String) (role : Role) :
    ∀ part ∈ node.pendingField field role, Fits node part :=
  fits_of_below (some role) fun _ found => .childOf (Option.mem_toList.mp found)

theorem condition?_below {condition : Node} (found : node.condition? = some condition) :
    condition.Below node := by
  obtain ⟨shown, inside, rfl⟩ := Option.map_eq_some_iff.mp found
  have shownBelow : shown.Below node := .childOf inside
  split
  · cases first : shown.parts.head? with
    | none => exact shownBelow
    | some part => exact (Below.part (List.mem_of_head? first)).trans shownBelow
  · exact shownBelow

theorem pendingCondition_fits (node : Node) :
    ∀ part ∈ node.pendingCondition, Fits node part :=
  fits_of_below (some .condition) fun _ found => condition?_below (Option.mem_toList.mp found)

/-- What is spread out of a node is inside it. -/
theorem spreadParts_below (isList : Node → Bool) (node : Node) :
    ∀ leaf ∈ node.spreadParts isList, leaf.Below node := by
  induction node using inductionOnChildren with
  | step node ih =>
      have among {nodes : List Node} (inside : nodes ⊆ node.children) :
          ∀ leaf ∈ spreadParts.among isList nodes, leaf.Below node := by
        induction nodes with
        | nil => simp [spreadParts.among]
        | cons child rest ihRest =>
            obtain ⟨member, later⟩ := List.cons_subset.mp inside
            rw [spreadParts.among]
            refine List.forall_mem_append.mpr ⟨?_, ihRest later⟩
            split
            · simp
            · split
              · exact fun leaf deeper => (ih child member leaf deeper).trans (.child member)
              · simpa using Below.child member
      obtain ⟨kind, field, named, extra, text, firstRow, lastRow, children⟩ := node
      rw [spreadParts]
      exact among (List.Subset.refl _)

theorem typeEntries_fits (role : Role) (node : Node) :
    ∀ part ∈ node.typeEntries role, Fits node part :=
  fits_of_below (some role) (spreadParts_below isTypeList node)

theorem bodyEntries_fits (node : Node) : ∀ part ∈ node.bodyEntries, Fits node part :=
  fits_of_below none (spreadParts_below isSecondHalf node)

/-- The type of a parameter is one of its children. -/
theorem parameterTypeAndName_type_below {type : Node}
    (found : node.parameterTypeAndName.1 = some type) : type.Below node := by
  have step {parts : List Node} (inside : parts ⊆ node.parts) {start : Option Node × Option Node}
      (first : ∀ type, start.1 = some type → type.Below node) :
      ∀ type, (parts.foldl parameterStep start).1 = some type → type.Below node := by
    induction parts generalizing start with
    | nil => exact first
    | cons part rest ih =>
        obtain ⟨member, later⟩ := List.cons_subset.mp inside
        refine ih later fun type => ?_
        obtain ⟨found, name⟩ := start
        rw [parameterStep]
        split
        · exact first type
        · split
          · exact first type
          · cases found with
            | some earlier => exact first type
            | none =>
                rintro ⟨⟩
                exact .part member
  exact step (List.Subset.refl _) (fun _ => .childOf) type found

theorem parameter_constructs (node : Node) (role : Option Role) :
    Constructs node (node.parameter role) := by
  refine .of node rfl rfl role fun part member => ?_
  split at member
  · cases member
  · next type found =>
      have typeBelow := parameterTypeAndName_type_below found
      split at member
      · exact (pendingParts_fits type _ part member).widen typeBelow
      · obtain rfl := List.mem_singleton.mp member
        exact .pending _ typeBelow

theorem nameParameter_fits (node source : Node) : Fits node source.nameParameter :=
  (Constructs.of source rfl rfl _ (by simp)).fits

theorem parameterList_fits (node : Node) :
    ∀ part ∈ node.parameterList, Fits node part := by
  intro part member
  obtain ⟨inner, inside, within⟩ := List.mem_flatMap.mp member
  split at within
  · obtain rfl := List.mem_singleton.mp within
    exact (parameter_constructs inner _).fits.widen (.part inside)
  · split at within
    · obtain rfl := List.mem_singleton.mp within
      exact nameParameter_fits node inner
    · cases within

theorem anonymousClass_constructs (node : Node) (role : Option Role) :
    Constructs node (node.anonymousClass role) :=
  .of node rfl rfl role (bodyEntries_fits node)

theorem typeDecl_constructs (node : Node) (role : Option Role) :
    Constructs node (node.typeDecl role) := by
  refine .of node rfl rfl role fun part member => ?_
  obtain ⟨inner, inside, within⟩ := List.mem_flatMap.mp member
  refine Fits.widen (.part inside) ?_
  simp only [typeDeclPart] at within
  split at within
  · exact typeEntries_fits _ inner part within
  · split at within
    · exact typeEntries_fits _ inner part within
    · split at within
      · obtain ⟨component, among, rfl⟩ := List.mem_map.mp within
        exact (parameter_constructs component _).fits.widen (.part (List.mem_filter.mp among).1)
      · split at within
        · exact bodyEntries_fits inner part within
        · cases within

theorem methodDecl_constructs (node : Node) (name : String) (role : Option Role) :
    Constructs node (node.methodDecl name role) := by
  refine .of node rfl rfl role fun part member => ?_
  obtain ⟨inner, inside, within⟩ := List.mem_flatMap.mp member
  simp only [methodPart] at within
  split at within
  · obtain rfl := List.mem_singleton.mp within
    exact .pending _ (.part inside)
  · split at within
    · exact (parameterList_fits inner part within).widen (.part inside)
    · split at within
      · obtain rfl := List.mem_singleton.mp within
        exact .pending _ (.part inside)
      · cases within

theorem declarators_constructs (node : Node) (role : Option Role) :
    ∀ part ∈ node.declarators role, Constructs node part := by
  intro part member
  obtain ⟨declarator, among, rfl⟩ := List.mem_map.mp member
  have inside : declarator.Below node := .part (List.mem_filter.mp among).1
  exact .of declarator rfl rfl role (List.forall_mem_append.mpr
    ⟨pendingField_fits node "type" .type, fun value pending =>
      (pendingField_fits declarator "value" .initialValue value pending).widen inside⟩)

theorem resource_constructs (node : Node) (role : Option Role) :
    Constructs node (node.resource role) := by
  rw [resource]
  split
  · exact .of node rfl rfl role (pendingParts_fits node none)
  · exact .of node rfl rfl role (List.forall_mem_append.mpr
      ⟨pendingField_fits node "type" .type, pendingField_fits node "value" .initialValue⟩)

theorem loopVariable_fits (node : Node) : ∀ part ∈ node.loopVariable, Fits node part := by
  intro part member
  rw [loopVariable] at member
  split at member
  · cases member
  · obtain rfl := List.mem_singleton.mp member
    exact (Constructs.of _ rfl rfl _ (by simp)).fits
  · next type found =>
      obtain rfl := List.mem_singleton.mp member
      refine (Constructs.built rfl rfl _ _ _ ?_).fits
      simpa using Fits.pending (some .type) (.childOf found)

theorem caseSketch_fits {entry : Node × Option Node} {statements : List Node}
    (value : ∀ label, entry.2 = some label → label.Below node)
    (inside : ∀ statement ∈ statements, statement.Below node) (arrow : Bool) :
    Fits node (caseSketch entry arrow statements) := by
  refine (Constructs.of _ rfl rfl _
    (List.forall_mem_append.mpr ⟨fun part member => ?_, fun part member => ?_⟩)).fits
  · obtain ⟨label, found, rfl⟩ := List.mem_map.mp member
    exact .pending _ (value label (Option.mem_toList.mp found))
  · obtain ⟨statement, among, rfl⟩ := List.mem_map.mp member
    exact .pending none (inside statement among)

theorem caseSketches_fits {statements : List Node} {entries : List (Node × Option Node)}
    (values : ∀ entry ∈ entries, ∀ label, entry.2 = some label → label.Below node)
    (inside : ∀ statement ∈ statements, statement.Below node) (arrow : Bool) :
    ∀ part ∈ caseSketches arrow statements entries, Fits node part := by
  induction entries with
  | nil => simp [caseSketches]
  | cons entry rest ih =>
      obtain ⟨own, later⟩ := List.forall_mem_cons.mp values
      cases rest with
      | nil => simpa [caseSketches] using caseSketch_fits own inside arrow
      | cons next rest =>
          rw [caseSketches]
          · exact List.forall_mem_cons.mpr ⟨caseSketch_fits own (by simp) false, ih later⟩
          · simp

theorem labelEntries_below {labels : List Node} (inside : ∀ label ∈ labels, label.Below node) :
    ∀ entry ∈ labelEntries labels, ∀ value, entry.2 = some value → value.Below node := by
  intro entry member value shown
  obtain ⟨label, among, within⟩ := List.mem_flatMap.mp member
  split at within
  · obtain rfl := List.mem_singleton.mp within
    cases shown
  · obtain ⟨part, present, rfl⟩ := List.mem_map.mp within
    obtain rfl := Option.some.inj shown
    exact (Below.part present).trans (inside label among)

theorem switchEntries_fits {labels statements parts : List Node}
    (insideLabels : ∀ label ∈ labels, label.Below node)
    (insideStatements : ∀ statement ∈ statements, statement.Below node)
    (insideParts : ∀ part ∈ parts, part.Below node) :
    ∀ part ∈ switchEntries labels statements parts, Fits node part := by
  induction parts generalizing labels statements with
  | nil => exact caseSketches_fits (labelEntries_below insideLabels) insideStatements false
  | cons part rest ih =>
      obtain ⟨partBelow, later⟩ := List.forall_mem_cons.mp insideParts
      have single : ∀ label ∈ [part], label.Below node := by simpa using partBelow
      have cases := caseSketches_fits (labelEntries_below insideLabels) insideStatements false
      rw [switchEntries, List.partition_eq_filter_filter]
      split
      · have among (inner : Node) (member : inner ∈ part.parts) : inner.Below node :=
          (Below.part member).trans partBelow
        exact List.forall_mem_append.mpr
          ⟨caseSketches_fits
            (labelEntries_below fun label member => among label (List.mem_filter.mp member).1)
            (fun statement member => among statement (List.mem_filter.mp member).1) _,
            ih insideLabels insideStatements later⟩
      · split
        · split
          · exact ih (List.forall_mem_append.mpr ⟨insideLabels, single⟩) (by simp) later
          · exact List.forall_mem_append.mpr ⟨cases, ih single (by simp) later⟩
        · split
          · exact List.forall_mem_cons.mpr
              ⟨.pending none partBelow, ih insideLabels insideStatements later⟩
          · exact ih insideLabels (List.forall_mem_append.mpr ⟨insideStatements, single⟩) later

theorem switchSketch_constructs (node : Node) (role : Option Role) :
    Constructs node (node.switchSketch role) := by
  refine .of node rfl rfl role
    (List.forall_mem_append.mpr ⟨pendingCondition_fits node, ?_⟩)
  split
  · simp
  · next block found =>
      exact switchEntries_fits (by simp) (by simp) fun part member =>
        (Below.part member).trans (.childOf found)

theorem creationPart_fits {part : Node} (inside : part.Below node) :
    ∀ sketch ∈ part.creationPart, Fits node sketch := by
  intro sketch member
  simp only [creationPart] at member
  split at member
  · obtain rfl := List.mem_singleton.mp member
    exact .pending _ inside
  · split at member
    · exact (pendingParts_fits part _ sketch member).widen inside
    · split at member
      · cases member
      · split at member
        · obtain rfl := List.mem_singleton.mp member
          exact (anonymousClass_constructs part none).fits.widen inside
        · obtain rfl := List.mem_singleton.mp member
          exact .pending _ inside

theorem pendingField_isBesideReceiver (node : Node) (field : String) {role : Role}
    (other : role ≠ .object) : ∀ part ∈ node.pendingField field role, part.IsBesideReceiver := by
  intro part member
  obtain ⟨inner, -, rfl⟩ := List.mem_map.mp member
  exact ⟨role, inner, rfl, other⟩

theorem callArguments_isBesideReceiver (node : Node) :
    ∀ part ∈ node.callArguments, part.IsBesideReceiver := by
  intro part member
  obtain ⟨list, -, within⟩ := List.mem_flatMap.mp member
  obtain ⟨inner, -, rfl⟩ := List.mem_map.mp within
  exact ⟨.argument, inner, rfl, by decide⟩

theorem callArguments_fits (node : Node) : ∀ part ∈ node.callArguments, Fits node part := by
  intro part member
  obtain ⟨list, found, within⟩ := List.mem_flatMap.mp member
  exact (pendingParts_fits list _ part within).widen (.childOf (Option.mem_toList.mp found))

theorem invocation_constructs (node : Node) (role : Option Role) :
    Constructs node (node.invocation role) := by
  rw [invocation, List.append_assoc]
  exact .call node rfl role _ (fun _ => .childOf)
    (List.forall_mem_append.mpr
      ⟨pendingField_isBesideReceiver node _ (by decide), callArguments_isBesideReceiver node⟩)
    (List.forall_mem_append.mpr
      ⟨fun part member => (pendingField_fits node _ _ part member).pends,
        fun part member => (callArguments_fits node part member).pends⟩)

theorem constructorCall_constructs (node : Node) (role : Option Role) :
    Constructs node (node.constructorCall role) :=
  .call node rfl role none (by simp)
    (List.forall_mem_append.mpr
      ⟨pendingField_isBesideReceiver node _ (by decide), callArguments_isBesideReceiver node⟩)
    (List.forall_mem_append.mpr
      ⟨fun part member => (pendingField_fits node _ _ part member).pends,
        fun part member => (callArguments_fits node part member).pends⟩)

theorem qualifier?_below {qualifier : Node} (found : node.qualifier? = some qualifier) :
    qualifier.Below node := by
  rw [qualifier?] at found
  cases object : node.childOf "object" with
  | some child =>
      obtain rfl : child = qualifier := by simpa [object] using found
      exact .childOf object
  | none =>
      cases scope : node.childOf "scope" with
      | some child =>
          obtain rfl : child = qualifier := by simpa [object, scope] using found
          exact .childOf scope
      | none =>
          have first : node.parts.head? = some qualifier := by simpa [object, scope] using found
          exact .part (List.mem_of_head? first)

theorem memberSelect_constructs (node : Node) (role : Option Role) :
    Constructs node (node.memberSelect role) := by
  refine .of node rfl rfl role fun part member => ?_
  obtain ⟨leaf, found, rfl⟩ := List.mem_map.mp member
  exact .pending _ (qualifier?_below (Option.mem_toList.mp found))

theorem lambda_constructs (node : Node) (role : Option Role) :
    Constructs node (node.lambda role) := by
  refine .of node rfl rfl role (List.forall_mem_append.mpr
    ⟨fun part member => ?_, pendingField_fits node "body" .body⟩)
  split at member
  · cases member
  · next list found =>
      split at member
      · obtain rfl := List.mem_singleton.mp member
        exact nameParameter_fits node list
      · exact (parameterList_fits list part member).widen (.childOf found)

theorem backwardOperands_below (operator : Option String) (node : Node) :
    ∀ operand ∈ node.backwardOperands operator, operand.Below node := by
  induction node using inductionOnChildren with
  | step node ih =>
      have among {nodes : List Node} (inside : nodes ⊆ node.children) :
          ∀ operand ∈ backwardOperands.leftAmong operator nodes, operand.Below node := by
        induction nodes with
        | nil => simp [backwardOperands.leftAmong]
        | cons child rest ihRest =>
            obtain ⟨member, later⟩ := List.cons_subset.mp inside
            rw [backwardOperands.leftAmong]
            split
            · split
              · exact fun operand found => (ih child member operand found).trans (.child member)
              · simpa using Below.child member
            · exact ihRest later
      obtain ⟨kind, field, named, extra, text, firstRow, lastRow, children⟩ := node
      rw [backwardOperands]
      refine List.forall_mem_append.mpr ⟨fun operand found => ?_, among (List.Subset.refl _)⟩
      exact .child (List.mem_of_find?_eq_some (Option.mem_toList.mp found))

theorem operands_below (form : ChainForm) (node : Node) :
    ∀ operand ∈ node.operands form, operand.Below node := by
  intro operand member
  cases form with
  | flat => exact backwardOperands_below _ node operand (List.mem_reverse.mp member)
  | nested =>
      rcases List.mem_append.mp member with left | right
      · exact .childOf (Option.mem_toList.mp left)
      · exact .childOf (Option.mem_toList.mp right)

theorem binary_constructs (form : ChainForm) (node : Node) (role : Option Role) :
    Constructs node (node.binary form role) := by
  refine .of node rfl rfl role fun part member => ?_
  obtain ⟨operand, among, rfl⟩ := List.mem_map.mp member
  exact .pending none (operands_below form node operand among)

/-- What a grammar node contributes is an identifier in the role that is asked for, or nodes
that are no identifiers. -/
theorem sketch_constructs (form : ChainForm) (role : Option Role) (node : Node) :
    (∃ name typePosition,
        node.sketch form role = [.of node (.identifier name typePosition) role []]) ∨
      ∀ part ∈ node.sketch form role, Constructs node part := by
  have single {sketch : Sketch} (constructs : Constructs node sketch) :
      ∀ part ∈ [sketch], Constructs node part := by simpa using constructs
  have built (kind : Kind) {parts : List Sketch} (noIdentifier : kind.isIdentifier = false)
      (noCall : kind.isCall = false) (fit : ∀ part ∈ parts, Fits node part) :
      ∀ part ∈ [Sketch.of node kind role parts], Constructs node part :=
    single (.of node noIdentifier noCall role fit)
  have field (name : String) (role : Role) := pendingField_fits node name role
  have condition := pendingCondition_fits node
  unfold sketch
  split
  · exact .inr (by simp)
  · -- the cases are the rules in the order of the match, the identifiers among them
    split
    case h_34 | h_35 => exact .inl ⟨_, _, rfl⟩
    all_goals right
    case h_1 | h_2 | h_29 | h_42 | h_43 => exact built _ rfl rfl (by simp)
    case h_3 | h_4 | h_5 | h_6 | h_7 => exact single (typeDecl_constructs node role)
    case h_8 => exact single (anonymousClass_constructs node role)
    case h_9 | h_10 | h_11 | h_12 => exact single (methodDecl_constructs node _ role)
    case h_13 | h_14 | h_15 => exact declarators_constructs node _
    case h_16 | h_17 | h_18 => exact single (parameter_constructs node _)
    case h_19 => exact single (resource_constructs node role)
    case h_20 | h_21 | h_30 | h_36 | h_44 => exact built _ rfl rfl (pendingParts_fits node none)
    case h_22 =>
      refine built _ rfl rfl ?_
      rw [List.forall_mem_append, List.forall_mem_append]
      exact ⟨⟨condition, field "consequence" .body⟩, field "alternative" .alternative⟩
    case h_23 =>
      refine built _ rfl rfl fun part member => ?_
      obtain ⟨inner, inside, rfl⟩ := List.mem_map.mp member
      exact .pending _ (.part inside)
    case h_24 =>
      refine built _ rfl rfl ?_
      rw [List.forall_mem_append, List.forall_mem_append]
      exact ⟨⟨loopVariable_fits node, field "value" .expression⟩, field "body" .body⟩
    case h_25 =>
      refine built _ rfl rfl ?_
      rw [List.forall_mem_append]
      exact ⟨condition, field "body" .body⟩
    case h_26 =>
      refine built _ rfl rfl ?_
      rw [List.forall_mem_append]
      exact ⟨field "body" .body, condition⟩
    case h_27 | h_28 => exact single (switchSketch_constructs node role)
    case h_31 =>
      refine built _ rfl rfl fun part member => ?_
      obtain ⟨inner, inside, within⟩ := List.mem_flatMap.mp member
      exact creationPart_fits (.part inside) part within
    case h_32 => exact single (invocation_constructs node role)
    case h_33 => exact single (constructorCall_constructs node role)
    case h_37 | h_38 | h_39 => exact single (memberSelect_constructs node role)
    case h_40 => exact single (lambda_constructs node role)
    case h_41 => exact single (binary_constructs form node role)

/-- Whatever a sketch leaves pending is inside the node. -/
theorem sketch_pends (form : ChainForm) (role : Option Role) (node : Node) :
    ∀ part ∈ node.sketch form role, PendsBelow node part := by
  rcases sketch_constructs form role node with ⟨name, typePosition, only⟩ | constructs
  · rw [only]
    exact List.forall_mem_singleton.mpr (.built _ _ _ _ (by simp))
  · exact fun part member => (constructs part member).pends

theorem sketch_fill_congr {lower lowerToo : Option Role → Node → List Syntax.Node}
    (form : ChainForm) (role : Option Role)
    (same : ∀ role leaf, leaf.Below node → lower role leaf = lowerToo role leaf) :
    Sketch.fill.fillAll lower (node.sketch form role) =
      Sketch.fill.fillAll lowerToo (node.sketch form role) := by
  rw [Sketch.fillAll_eq_flatMap, Sketch.fillAll_eq_flatMap]
  exact List.flatMap_congr fun part member =>
    (sketch_pends form role node part member).fill_congr same

/-- A node is lowered in the same way whatever depth is set beyond its size. -/
theorem lowerUpTo_eq (form : ChainForm) (role : Option Role) {depth : Nat} {node : Node}
    (enough : node.size ≤ depth) : lowerUpTo form depth role node = lower form role node := by
  have equal (limit : Nat) : ∀ {first second : Nat} {role : Option Role} {node : Node},
      node.size ≤ limit → node.size ≤ first → node.size ≤ second →
        lowerUpTo form first role node = lowerUpTo form second role node := by
    induction limit with
    | zero =>
        intro first second role node bound
        have nonempty := node.size_eq
        omega
    | succ limit ih =>
        intro first second role node bound enoughFirst enoughSecond
        have nonempty := node.size_eq
        obtain ⟨first, rfl⟩ : ∃ depth, first = depth + 1 := ⟨first - 1, by omega⟩
        obtain ⟨second, rfl⟩ : ∃ depth, second = depth + 1 := ⟨second - 1, by omega⟩
        rw [lowerUpTo, lowerUpTo]
        refine sketch_fill_congr form role fun role leaf below => ?_
        have smaller := below.size_lt
        exact ih (by omega) (by omega) (by omega)
  exact equal depth enough enough (Nat.le_refl _)

/-- What a node gives is what its sketch gives, the pending leaves lowered. -/
theorem lower_eq (form : ChainForm) (role : Option Role) (node : Node) :
    node.lower form role = Sketch.fill.fillAll (lower form) (node.sketch form role) := by
  rw [← lowerUpTo_eq form role (Nat.le_succ node.size), lowerUpTo]
  exact sketch_fill_congr form role fun role leaf below =>
    lowerUpTo_eq form role (Nat.le_of_lt below.size_lt)

end Node

end JavaStructure.Grammar
