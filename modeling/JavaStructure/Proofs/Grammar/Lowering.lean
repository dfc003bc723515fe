/-
# The shape of lowered trees

A node of the lowered tree is a sketch with its pending leaves filled. An identifier has no
parts, and a call has nothing in front of what it is made on: this holds of the sketches, from
them it passes on to all nodes, and numbering does not touch it.
-/

import JavaStructure.Proofs.Grammar.Constructs
import JavaStructure.Proofs.Grammar.Numbering

namespace JavaStructure

namespace Grammar

open Syntax (Kind Role)
open Syntax.Node (AllRegular)

/-- What pending leaves are replaced by: regular trees, and an identifier alone and in the role
that is asked for. -/
structure FillsRegularly (lower : Option Role → Node → List Syntax.Node) : Prop where
  regular : ∀ role source, ∀ node ∈ lower role source, AllRegular node
  identifier : ∀ role source, ∀ node ∈ lower role source, node.kind.isIdentifier = true →
    lower role source = [node] ∧ node.role = role

variable {lower : Option Role → Node → List Syntax.Node} {sketch : Sketch}

/-- A tree is regular if its root and the trees below it are. -/
theorem allRegular_of_children {node : Syntax.Node} (own : node.IsRegular)
    (children : ∀ child ∈ node.children, AllRegular child) : AllRegular node := by
  intro inner below
  rw [Syntax.Node.preorder_eq] at below
  rcases List.mem_cons.mp below with rfl | deeper
  · exact own
  · obtain ⟨child, member, within⟩ := Syntax.Node.mem_preorderAll.mp deeper
    exact children child member inner within

/-- Where neither identifiers nor calls are, nothing is asked for. -/
theorem isRegular_of_kind {node : Syntax.Node} (noIdentifier : node.kind.isIdentifier = false)
    (noCall : node.kind.isCall = false) : node.IsRegular where
  leaf isIdentifier := by
    rw [noIdentifier] at isIdentifier
    cases isIdentifier
  receiver isCall := by
    rw [noCall] at isCall
    cases isCall

namespace Sketch

theorem mem_fillAll {sketches : List Sketch} {node : Syntax.Node} :
    node ∈ fill.fillAll lower sketches ↔ ∃ part ∈ sketches, node ∈ fill lower part := by
  rw [fillAll_eq_flatMap, List.mem_flatMap]

/-- The parts beside a receiver give no identifier in its role. -/
theorem role_ne_object (fills : FillsRegularly lower) {others : List Sketch}
    (beside : ∀ part ∈ others, part.IsBesideReceiver) {child : Syntax.Node}
    (member : child ∈ fill.fillAll lower others) (isIdentifier : child.kind.isIdentifier = true) :
    child.role ≠ some .object := by
  obtain ⟨part, inside, filled⟩ := mem_fillAll.mp member
  obtain ⟨role, source, rfl, other⟩ := beside part inside
  rw [fill] at filled
  rw [(fills.identifier _ source child filled isIdentifier).2]
  exact fun same => other (Option.some.inj same)

/-- The identifier that a call is made on is filled in first. -/
theorem before_receiver (fills : FillsRegularly lower) (receiver : Option Node)
    {others : List Sketch} (beside : ∀ part ∈ others, part.IsBesideReceiver)
    {before after : List Syntax.Node} {child : Syntax.Node}
    (split : fill.fillAll lower (receiver.toList.map (.pending (some .object)) ++ others) =
      before ++ child :: after)
    (object : child.role = some .object) (isIdentifier : child.kind.isIdentifier = true) :
    before = [] := by
  have later : child ∉ fill.fillAll lower others :=
    fun member => role_ne_object fills beside member isIdentifier object
  cases receiver with
  | none =>
      refine absurd ?_ later
      rw [Option.toList_none, List.map_nil, List.nil_append] at split
      simp [split]
  | some source =>
      rw [Option.toList_some, List.map_singleton, List.singleton_append, fill.fillAll, fill]
        at split
      have among : child ∈ lower (some .object) source ++ fill.fillAll lower others := by
        simp [split]
      have first := (List.mem_append.mp among).resolve_right later
      rw [(fills.identifier _ source child first isIdentifier).1] at split
      cases before with
      | nil => rfl
      | cons front rest =>
          have remaining : fill.fillAll lower others = rest ++ child :: after :=
            (List.cons.inj split).2
          refine absurd ?_ later
          simp [remaining]

/-- Filling the sketches of regular nodes gives regular trees. -/
theorem Regular.fill (fills : FillsRegularly lower) (regular : sketch.Regular) :
    ∀ node ∈ sketch.fill lower, AllRegular node := by
  induction regular with
  | pending role source => exact fills.regular role source
  | identifier isIdentifier role text line =>
      intro node member
      rw [Sketch.fill] at member
      obtain rfl := List.mem_singleton.mp member
      refine allRegular_of_children ⟨fun _ => rfl, fun isCall => ?_⟩ (by simp [fill.fillAll])
      cases isCall.symm.trans (Kind.isCall_of_isIdentifier isIdentifier)
  | @call kind isCall role text line receiver others beside =>
      intro node member
      rw [Sketch.fill] at member
      obtain rfl := List.mem_singleton.mp member
      refine allRegular_of_children ⟨fun isIdentifier => ?_, fun _ split => ?_⟩
        fun child member => ?_
      · cases isCall.symm.trans (Kind.isCall_of_isIdentifier isIdentifier)
      · exact before_receiver fills receiver beside split
      · obtain ⟨part, inside, filled⟩ := mem_fillAll.mp member
        rcases List.mem_append.mp inside with first | later
        · obtain ⟨source, -, rfl⟩ := List.mem_map.mp first
          exact fills.regular _ source child filled
        · obtain ⟨role, source, rfl, -⟩ := beside part later
          exact fills.regular _ source child filled
  | other noIdentifier noCall role text line _ ih =>
      intro node member
      rw [Sketch.fill] at member
      obtain rfl := List.mem_singleton.mp member
      refine allRegular_of_children (isRegular_of_kind noIdentifier noCall) fun child member => ?_
      obtain ⟨part, inside, filled⟩ := mem_fillAll.mp member
      exact ih part inside child filled

end Sketch

/-- Lowering fills regularly, however deep. -/
theorem Node.lowerUpTo_fillsRegularly (form : ChainForm) (depth : Nat) :
    FillsRegularly (lowerUpTo form depth) := by
  induction depth with
  | zero => exact ⟨by simp [lowerUpTo], by simp [lowerUpTo]⟩
  | succ depth ih =>
      refine ⟨fun role source node member => ?_, fun role source node member isIdentifier => ?_⟩
      · rw [lowerUpTo] at member
        obtain ⟨part, inside, filled⟩ := Sketch.mem_fillAll.mp member
        rcases sketch_constructs form role source with ⟨name, typePosition, only⟩ | constructs
        · rw [only] at inside
          obtain rfl := List.mem_singleton.mp inside
          exact (Sketch.Regular.identifier rfl role _ _).fill ih node filled
        · exact (constructs part inside).fits.regular.fill ih node filled
      · rw [lowerUpTo] at member ⊢
        rcases sketch_constructs form role source with ⟨name, typePosition, only⟩ | constructs
        · rw [only] at member ⊢
          obtain rfl := List.mem_singleton.mp member
          exact ⟨rfl, rfl⟩
        · obtain ⟨part, inside, filled⟩ := Sketch.mem_fillAll.mp member
          obtain ⟨kind, role, text, line, parts, rfl, noIdentifier⟩ :=
            (constructs part inside).construct.built
          rw [Sketch.fill] at filled
          obtain rfl := List.mem_singleton.mp filled
          rw [noIdentifier] at isIdentifier
          cases isIdentifier

/-- Numbering keeps nodes regular. -/
theorem number_isRegular {node : Syntax.Node} (regular : node.IsRegular) (next : Nat) :
    (node.number next).IsRegular where
  leaf isIdentifier := by
    rw [Syntax.Node.number_kind] at isIdentifier
    rw [Syntax.Node.number_children, regular.leaf isIdentifier]
    rfl
  receiver isCall split object isIdentifier := by
    rw [Syntax.Node.number_kind] at isCall
    rw [Syntax.Node.number_children] at split
    obtain ⟨front, original, back, start, children, length, rfl⟩ :=
      Syntax.Node.split_numberAll split
    rw [Syntax.Node.number_role] at object
    rw [Syntax.Node.number_kind] at isIdentifier
    rw [regular.receiver isCall children object isIdentifier] at length
    exact List.length_eq_zero_iff.mp length

/-- Every node of a lowered unit is regular. -/
theorem Node.lowerUnit_regular (form : ChainForm) (root : Node) :
    AllRegular (root.lowerUnit form) := by
  have built : AllRegular (root.lowerRoot form) := by
    refine allRegular_of_children (isRegular_of_kind rfl rfl) fun child member => ?_
    obtain ⟨part, -, lowered⟩ := List.mem_flatMap.mp member
    exact (lowerUpTo_fillsRegularly form part.size).regular none part child lowered
  intro node below
  rw [lowerUnit_eq] at below
  obtain ⟨original, inside, start, rfl⟩ := Syntax.Node.mem_preorder_number below
  exact number_isRegular (built original inside) start

end Grammar

end JavaStructure
