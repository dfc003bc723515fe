/-
# Chains of operators

A chain such as `a + b + c` can be shown as one node with all its operands, or as nested nodes
with two operands each. Where every binary expression has a left and a right operand, condensing
makes one tree of both, so they have the same nodes otherwise and lead to the same document.
-/

import JavaStructure.Proofs.Building.Condensed
import JavaStructure.Proofs.Grammar.Constructs
import JavaStructure.Proofs.Grammar.Numbering

namespace JavaStructure.Grammar

open Syntax (Role binaryKind)
open Syntax.Node (condensed condensed_eq gathered spread)

namespace Node

variable {root node left right : Node} {form formToo : ChainForm} {role : Option Role}

/-- The parts of a node are a left and a right operand. -/
structure HasOperands (node left right : Node) : Prop where
  parts : node.parts.Perm [left, right]
  left : node.childOf "left" = some left
  right : node.childOf "right" = some right

/-- A binary expression has a left and a right operand and no other parts. -/
def IsPaired (node : Node) : Prop :=
  node.kind = "binary_expression" → ∃ left right, node.HasOperands left right

/-- Every binary expression in a tree has a left and a right operand and no other parts. -/
def PairsOperands (root : Node) : Prop :=
  ∀ expression : Node, expression.Below root → expression.IsPaired

/-- The trees that a node gives, condensed and without ids. -/
def shapes (form : ChainForm) (role : Option Role) (node : Node) : List Syntax.Node :=
  (node.lower form role).map (condensed fun _ => 0)

/-- What an operand adds to the binary expression around it. -/
def operandShapes (form : ChainForm) (operand : Node) : List Syntax.Node :=
  (operand.shapes form none).flatMap spread

/-- The operands of a chain go on to the left as long as the operator is the same. -/
theorem backwardOperands_eq (operator : Option String) (node : Node) :
    node.backwardOperands operator =
      (node.childOf "right").toList ++
        match node.childOf "left" with
        | none => []
        | some left =>
            if left.kind = "binary_expression" ∧ left.operator? = operator then
              left.backwardOperands operator
            else [left] := by
  obtain ⟨kind, field, named, extra, text, firstRow, lastRow, children⟩ := node
  rw [backwardOperands]
  refine congrArg _ ?_
  simp only [childOf]
  induction children with
  | nil => rfl
  | cons child rest ih =>
      rw [backwardOperands.leftAmong, List.find?_cons]
      by_cases first : child.field == some "left"
      · rw [if_pos first]
        simp only [first]
      · rw [if_neg first, ih]
        simp only [first]

/-- What may stand anywhere gives nothing. -/
theorem shapes_of_extra (form : ChainForm) (role : Option Role) (extra : node.extra = true) :
    node.shapes form role = [] := by
  rw [shapes, lower_eq, sketch, if_pos (.inl extra)]
  rfl

theorem sketch_of_binary (form : ChainForm) (role : Option Role)
    (isBinary : node.kind = "binary_expression") (proper : node.extra = false) :
    node.sketch form role = [node.binary form role] := by
  have kept : ¬(node.extra ∨ node.kind ∈ skippedRules) := by
    simp [proper, isBinary, skippedRules]
  rw [sketch, if_neg kept]
  simp only [isBinary]

/-- A binary expression gives one node over what its operands give: in the nested form over its
two operands, in the flat form over all operands of the chain. -/
theorem lower_of_binary (form : ChainForm) (role : Option Role)
    (isBinary : node.kind = "binary_expression") (proper : node.extra = false) :
    node.lower form role =
      [⟨0, binaryKind, role, node.text, node.firstRow + 1,
        (node.operands form).flatMap (lower form none)⟩] := by
  have kind : Syntax.Kind.other node.kind = binaryKind := by rw [isBinary]; rfl
  calc node.lower form role
    _ = (node.binary form role).fill (lower form) := by
      rw [lower_eq, sketch_of_binary form role isBinary proper, Sketch.fillAll_eq_flatMap,
        List.flatMap_singleton]
    _ = [⟨0, binaryKind, role, node.text, node.firstRow + 1,
        ((node.operands form).map (Sketch.pending none)).flatMap (Sketch.fill (lower form))⟩] := by
      rw [binary, kind, Sketch.of, Sketch.fill, Sketch.fillAll_eq_flatMap]
    _ = _ := by
      rw [List.flatMap_map]
      rfl

/-- Condensed, it has for children what its operands add. -/
theorem shapes_of_binary (form : ChainForm) (role : Option Role)
    (isBinary : node.kind = "binary_expression") (proper : node.extra = false) :
    node.shapes form role =
      [⟨0, binaryKind, role, node.text, node.firstRow + 1,
        (node.operands form).flatMap (operandShapes form)⟩] := by
  calc node.shapes form role
    _ = [condensed (fun _ => 0) ⟨0, binaryKind, role, node.text, node.firstRow + 1,
        (node.operands form).flatMap (lower form none)⟩] := by
      rw [shapes, lower_of_binary form role isBinary proper, List.map_singleton]
    _ = [⟨0, binaryKind, role, node.text, node.firstRow + 1,
        (((node.operands form).flatMap (lower form none)).map (condensed fun _ => 0)).flatMap
          spread⟩] := by
      rw [condensed_eq, gathered, if_pos rfl]
    _ = _ := by
      rw [List.map_flatMap, List.flatMap_assoc]
      rfl

/-- A binary operand adds what its own operands add. -/
theorem operandShapes_of_binary (form : ChainForm) (isBinary : node.kind = "binary_expression")
    (proper : node.extra = false) :
    node.operandShapes form = (node.operands form).flatMap (operandShapes form) := by
  rw [operandShapes, shapes_of_binary form none isBinary proper, List.flatMap_singleton, spread,
    if_pos ⟨rfl, rfl⟩]

/-- Whatever the form, the two operands add what they add. -/
theorem flatMap_operands (form : ChainForm) (pair : node.HasOperands left right) :
    (node.operands form).flatMap (operandShapes form) =
      left.operandShapes form ++ right.operandShapes form := by
  cases form with
  | nested => simp [operands, pair.left, pair.right]
  | flat =>
      have proper : left.extra = false := by
        have part : left ∈ node.parts := pair.parts.mem_iff.mpr List.mem_cons_self
        have kept : left.named = true ∧ left.extra = false := by
          simpa [isProper] using (List.mem_filter.mp part).2
        exact kept.2
      rw [operands, backwardOperands_eq, pair.left, pair.right]
      dsimp only
      split
      · -- the chain goes on, and its other operands are those of the left operand
        next chained =>
          have chain : left.operands .flat = (left.backwardOperands node.operator?).reverse := by
            rw [operands, chained.2]
          rw [operandShapes_of_binary .flat chained.1 proper, chain]
          simp
      · simp

/-- Only binary expressions depend on the form. -/
theorem sketch_of_ne (form formToo : ChainForm) (role : Option Role)
    (other : node.kind ≠ "binary_expression") :
    node.sketch form role = node.sketch formToo role := by
  unfold sketch
  split
  · rfl
  · split <;> first | rfl | contradiction

/-- A built sketch gives one node, over what its children give. -/
theorem Sketch.fill_condensed {lower : Option Role → Node → List Syntax.Node} {kind : Syntax.Kind}
    {role : Option Role} {text : String} {line : Nat} {children : List Sketch} :
    ((Sketch.built kind role text line children).fill lower).map (condensed fun _ => 0) =
      [⟨0, kind, role, text, line, gathered kind
        (children.flatMap fun child => (child.fill lower).map (condensed fun _ => 0))⟩] := by
  rw [Sketch.fill, Sketch.fillAll_eq_flatMap, List.map_singleton, condensed_eq, List.map_flatMap]

theorem condensed_fill {lower lowerToo : Option Role → Node → List Syntax.Node}
    (same : ∀ role leaf, leaf.Below node →
      (lower role leaf).map (condensed fun _ => 0) =
        (lowerToo role leaf).map (condensed fun _ => 0))
    {sketch : Sketch} (pends : Sketch.PendsBelow node sketch) :
    (sketch.fill lower).map (condensed fun _ => 0) =
      (sketch.fill lowerToo).map (condensed fun _ => 0) := by
  induction pends with
  | pending role below => exact same role _ below
  | built kind role text line _ ih =>
      rw [Sketch.fill_condensed, Sketch.fill_condensed, List.flatMap_congr ih]

/-- Both forms give the same trees once they are condensed. -/
theorem shapes_flat (paired : root.PairsOperands) (below : node.Below root)
    (role : Option Role) : node.shapes .flat role = node.shapes .nested role := by
  -- the operands of a chain are deeper down, but smaller
  induction size : node.size using Nat.strongRecOn generalizing node role with
  | ind bound ih =>
      have inside (leaf : Node) (within : leaf.Below node) (role : Option Role) :
          leaf.shapes .flat role = leaf.shapes .nested role :=
        ih leaf.size (size ▸ within.size_lt) (within.trans below) role rfl
      by_cases isBinary : node.kind = "binary_expression"
      · obtain ⟨left, right, pair⟩ := paired node below isBinary
        cases extra : node.extra with
        | true => rw [shapes_of_extra .flat role extra, shapes_of_extra .nested role extra]
        | false =>
            have operands : (node.operands .flat).flatMap (operandShapes .flat) =
                (node.operands .nested).flatMap (operandShapes .nested) :=
              calc (node.operands .flat).flatMap (operandShapes .flat)
                _ = left.operandShapes .flat ++ right.operandShapes .flat :=
                  flatMap_operands .flat pair
                _ = left.operandShapes .nested ++ right.operandShapes .nested :=
                  congrArg₂ (fun first second => first.flatMap spread ++ second.flatMap spread)
                    (inside left (.childOf pair.left) none)
                    (inside right (.childOf pair.right) none)
                _ = (node.operands .nested).flatMap (operandShapes .nested) :=
                  (flatMap_operands .nested pair).symm
            rw [shapes_of_binary .flat role isBinary extra,
              shapes_of_binary .nested role isBinary extra, operands]
      · calc node.shapes .flat role
          _ = (node.sketch .nested role).flatMap fun part =>
              (part.fill (lower .flat)).map (condensed fun _ => 0) := by
            rw [shapes, lower_eq, sketch_of_ne .flat .nested role isBinary,
              Sketch.fillAll_eq_flatMap, List.map_flatMap]
          _ = (node.sketch .nested role).flatMap fun part =>
              (part.fill (lower .nested)).map (condensed fun _ => 0) :=
            List.flatMap_congr fun part member =>
              condensed_fill (fun role leaf within => inside leaf within role)
                (sketch_pends .nested role node part member)
          _ = node.shapes .nested role := by
            rw [shapes, lower_eq, Sketch.fillAll_eq_flatMap, List.map_flatMap]

theorem lowerRoot_flat (paired : root.PairsOperands) :
    (root.lowerRoot .flat).condensed (fun _ => 0) =
      (root.lowerRoot .nested).condensed fun _ => 0 := by
  have children : (root.parts.flatMap (lower .flat none)).map (condensed fun _ => 0) =
      (root.parts.flatMap (lower .nested none)).map (condensed fun _ => 0) := by
    rw [List.map_flatMap, List.map_flatMap]
    exact List.flatMap_congr fun part member => shapes_flat paired (.part member) none
  rw [condensed_eq, condensed_eq, lowerRoot, lowerRoot, children]

/-- Both forms of a unit can be given the same tree by condensing, each with a renaming of its
ids that keeps them apart. -/
theorem exists_condensed_eq (paired : root.PairsOperands) (form : ChainForm) :
    ∃ rename : Nat → Nat, Function.Injective rename ∧
      (root.lowerUnit form).condensed rename =
        ((root.lowerRoot .nested).condensed fun _ => 0).number 0 := by
  obtain ⟨rename, keepsApart, same⟩ :=
    Syntax.Node.exists_condensed_eq_number (lowerUnit_hasDistinctIds form root)
  refine ⟨rename, keepsApart, ?_⟩
  rw [same, lowerUnit_eq, Syntax.Node.condensed_number]
  cases form with
  | flat => rw [lowerRoot_flat paired]
  | nested => rfl

/-- Whether operator chains are shown flat or nested makes no difference but for the binary
expressions themselves: all other nodes stand in the same order, and whatever is known of other
units, the document of the unit is the same. -/
theorem lowerUnit_forms_agree (paired : root.PairsOperands) :
    (root.lowerUnit .flat).faces = (root.lowerUnit .nested).faces ∧
      ∀ (path : String) (lineCount : Nat) (context : List Syntax.Node),
        Interchange.renderModel (.ofUnit
            (Resolution.ofUnit (root.lowerUnit .flat) lineCount context).toResolver
            (root.lowerUnit .flat) path) =
          Interchange.renderModel (.ofUnit
            (Resolution.ofUnit (root.lowerUnit .nested) lineCount context).toResolver
            (root.lowerUnit .nested) path) := by
  obtain ⟨first, firstApart, flat⟩ := exists_condensed_eq paired .flat
  obtain ⟨second, secondApart, nested⟩ := exists_condensed_eq paired .nested
  have common : (root.lowerUnit .flat).condensed first =
      (root.lowerUnit .nested).condensed second := flat.trans nested.symm
  constructor
  · rw [← Syntax.Node.faces_condensed first, common, Syntax.Node.faces_condensed]
  · intro path lineCount context
    have other (form : ChainForm) : (root.lowerUnit form).kind ≠ binaryKind := by
      have unit : (root.lowerUnit form).kind = .compilationUnit := by
        rw [lowerUnit_eq]
        rfl
      simp [unit, binaryKind]
    rw [← renderModel_condensed firstApart (other .flat), common,
      renderModel_condensed secondApart (other .nested)]

/-- A name in a field. -/
def nameIn (field text : String) : Node :=
  bare "identifier" (some field) text []

/-- A binary expression with an operator between its two operands. -/
def operation (field : Option String) (operator : String) (left right : Node) : Node :=
  bare "binary_expression" field (left.text ++ operator ++ right.text)
    [left, { bare operator (some "operator") operator [] with named := false }, right]

/-- The statement `a+b+c*d;`, in which one operand has another operator. -/
def chainUnit : Node :=
  bare "program" none "a+b+c*d;"
    [bare "expression_statement" none "a+b+c*d;"
      [operation none "+" (operation (some "left") "+" (nameIn "left" "a") (nameIn "right" "b"))
        (operation (some "right") "*" (nameIn "left" "c") (nameIn "right" "d"))]]

theorem pairsOperands_of_children
    (each : ∀ child ∈ root.children, child.PairsOperands ∧ child.IsPaired) :
    root.PairsOperands := by
  intro expression below
  cases below with
  | child member => exact (each expression member).2
  | deeper member inside => exact (each _ member).1 expression inside

theorem operation_pairsOperands (field : Option String) (operator : String)
    (noExpression : operator ≠ "binary_expression")
    (pairedLeft : left.PairsOperands ∧ left.IsPaired)
    (pairedRight : right.PairsOperands ∧ right.IsPaired) :
    (operation field operator left right).PairsOperands := by
  refine pairsOperands_of_children ?_
  simp only [operation, bare, List.forall_mem_cons]
  exact ⟨pairedLeft, ⟨pairsOperands_of_children (by simp), fun expression =>
    absurd expression noExpression⟩, pairedRight, by simp⟩

theorem nameIn_pairsOperands (field text : String) :
    (nameIn field text).PairsOperands ∧ (nameIn field text).IsPaired :=
  ⟨pairsOperands_of_children (by simp [nameIn, bare]), by simp [IsPaired, nameIn, bare]⟩

theorem chainUnit_pairsOperands : chainUnit.PairsOperands := by
  have inner (field first second : String) {operator : String}
      (noExpression : operator ≠ "binary_expression") :=
    operation_pairsOperands (some field) operator noExpression
      (nameIn_pairsOperands "left" first) (nameIn_pairsOperands "right" second)
  have sum := inner "left" "a" "b" (show "+" ≠ "binary_expression" by decide)
  have product := inner "right" "c" "d" (show "*" ≠ "binary_expression" by decide)
  have whole := operation_pairsOperands none "+" (by decide)
    ⟨sum, fun _ => ⟨_, _, .refl _, rfl, rfl⟩⟩ ⟨product, fun _ => ⟨_, _, .refl _, rfl, rfl⟩⟩
  refine pairsOperands_of_children (List.forall_mem_singleton.mpr ⟨?_, nofun⟩)
  exact pairsOperands_of_children
    (List.forall_mem_singleton.mpr ⟨whole, fun _ => ⟨_, _, .refl _, rfl, rfl⟩⟩)

/-- The flat form of the sum has a node less, and means the same. -/
theorem chainUnit_forms_agree :
    chainUnit.PairsOperands ∧
      (chainUnit.lowerUnit .flat).size < (chainUnit.lowerUnit .nested).size ∧
      (chainUnit.lowerUnit .flat).faces = (chainUnit.lowerUnit .nested).faces ∧
        ∀ (path : String) (lineCount : Nat) (context : List Syntax.Node),
          Interchange.renderModel (.ofUnit
              (Resolution.ofUnit (chainUnit.lowerUnit .flat) lineCount context).toResolver
              (chainUnit.lowerUnit .flat) path) =
            Interchange.renderModel (.ofUnit
              (Resolution.ofUnit (chainUnit.lowerUnit .nested) lineCount context).toResolver
              (chainUnit.lowerUnit .nested) path) :=
  ⟨chainUnit_pairsOperands, by decide, lowerUnit_forms_agree chainUnit_pairsOperands⟩

end Node

end JavaStructure.Grammar
