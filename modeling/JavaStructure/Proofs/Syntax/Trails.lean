/-
# The way to a node

A node of a tree is given by the way that leads to it: the nodes above it, each with the
children that stand before the way goes on. The name of a call is no place of its own, so no
way leads to it or below it.
-/

import JavaStructure.Proofs.Syntax.Preorder

namespace JavaStructure.Syntax

namespace Kind

/-- Whether a node is an identifier. -/
def isIdentifier : Kind → Bool
  | .identifier _ _ => true
  | _ => false

/-- Whether a node is a call. -/
def isCall : Kind → Bool
  | .invocation _ => true
  | _ => false

theorem exists_of_isIdentifier {kind : Kind} (isIdentifier : kind.isIdentifier = true) :
    ∃ name typePosition, kind = .identifier name typePosition := by
  cases kind with
  | identifier name typePosition => exact ⟨name, typePosition, rfl⟩
  | _ => cases isIdentifier

theorem isCall_of_isIdentifier {kind : Kind} (isIdentifier : kind.isIdentifier = true) :
    kind.isCall = false := by
  obtain ⟨name, typePosition, rfl⟩ := exists_of_isIdentifier isIdentifier
  rfl

end Kind

namespace Node

/-- An identifier has no children, and no child stands in front of the identifier that a
call is made on. -/
structure IsRegular (node : Node) : Prop where
  leaf : node.kind.isIdentifier = true → node.children = []
  receiver : ∀ {before child after}, node.kind.isCall = true →
    node.children = before ++ child :: after → child.role = some .object →
    child.kind.isIdentifier = true → before = []

theorem IsRegular.noIdentifier {node child : Node} (regular : node.IsRegular)
    (member : child ∈ node.children) : node.kind.isIdentifier = false := by
  cases isIdentifier : node.kind.isIdentifier with
  | true => simp [regular.leaf isIdentifier] at member
  | false => rfl

/-- Every node of a tree is regular. -/
def AllRegular (root : Node) : Prop :=
  ∀ node ∈ root.preorder, node.IsRegular

/-- Whether a child is the name of a call. -/
def isCallName (parent child : Node) : Bool :=
  parent.kind.isCall && child.role == some .name

/-- Whether a node of a tree is, or is part of, the name of a call. The grammar gives such a
name no parts. -/
def NamesCall (root node : Node) : Prop :=
  ∃ call ∈ root.preorder, ∃ name ∈ call.children,
    call.isCallName name = true ∧ node ∈ name.preorder

end Node

/-- One step down from a node, past the children that stand before. -/
structure Step where
  parent : Node
  before : List Node

/-- The steps that lead to a node, the last one first. -/
abbrev Trail := List Step

/-- A trail leads from the root of a tree to a node, not through the name of a call. -/
inductive Leads (root : Node) : Trail → Node → Prop
  | root : Leads root [] root
  | child {trail : Trail} {parent child : Node} {before after : List Node}
      (above : Leads root trail parent) (children : parent.children = before ++ child :: after)
      (notName : parent.isCallName child = false) :
      Leads root (⟨parent, before⟩ :: trail) child

/-- No step of a trail leads below an identifier, where nothing is looked for. -/
def Trail.IsOpen (trail : Trail) : Prop :=
  ∀ step ∈ trail, step.parent.kind.isIdentifier = false

instance (trail : Trail) : Decidable trail.IsOpen :=
  List.decidableBAll _ trail

variable {root node parent : Node} {trail : Trail}

theorem Leads.mem_preorder (leads : Leads root trail node) : node ∈ root.preorder := by
  induction leads with
  | root => exact root.mem_preorder_self
  | @child trail parent child before after above children notName ih =>
      have member : child ∈ parent.children := by simp [children]
      exact Node.mem_preorder_trans ih
        (Node.mem_preorder_of_mem_children member child.mem_preorder_self)

/-- A trail leads down: what is below the node at its end is below every step. -/
theorem Leads.mem_of_mem_trail (leads : Leads root trail node) {step : Step}
    (inside : step ∈ trail) : step.parent ∈ root.preorder ∧
      ∀ inner ∈ node.preorder, inner ∈ Node.preorder.preorderAll step.parent.children := by
  induction leads with
  | root => cases inside
  | @child trail parent child before after above children notName ih =>
      have member : child ∈ parent.children := by simp [children]
      rcases List.mem_cons.mp inside with rfl | outside
      · exact ⟨above.mem_preorder, fun inner below =>
          Node.mem_preorderAll.mpr ⟨child, member, below⟩⟩
      · obtain ⟨within, deeper⟩ := ih outside
        exact ⟨within, fun inner below =>
          deeper inner (Node.mem_preorder_of_mem_children member below)⟩

/-- In a regular tree all trails are open. -/
theorem Leads.isOpen (leads : Leads root trail node) (regular : root.AllRegular) :
    trail.IsOpen := by
  induction leads with
  | root => exact fun _ inside => nomatch inside
  | @child trail parent child before after above children notName ih =>
      have member : child ∈ parent.children := by simp [children]
      exact List.forall_mem_cons.mpr
        ⟨(regular parent above.mem_preorder).noIdentifier member, ih⟩

theorem Leads.exists_of_mem (above : Leads root trail parent) (below : node ∈ parent.preorder)
    (outside : ¬ root.NamesCall node) : ∃ trail, Leads root trail node := by
  induction parent using Node.inductionOnChildren generalizing trail with
  | step parent ih =>
      rw [Node.preorder_eq] at below
      rcases List.mem_cons.mp below with rfl | deeper
      · exact ⟨trail, above⟩
      · obtain ⟨child, member, within⟩ := Node.mem_preorderAll.mp deeper
        obtain ⟨before, after, children⟩ := List.append_of_mem member
        cases named : parent.isCallName child with
        | true => exact absurd ⟨parent, above.mem_preorder, child, member, named, within⟩ outside
        | false => exact ih child member (.child above children named) within

/-- A trail leads to every node that is not, and is not part of, the name of a call. -/
theorem exists_leads (below : node ∈ root.preorder) (outside : ¬ root.NamesCall node) :
    ∃ trail, Leads root trail node :=
  Leads.root.exists_of_mem below outside

/-- What an open trail leads to is all that a walk through a tree comes to: every other node is,
or is part of, the name of a call, or stands below an identifier. -/
theorem Leads.exists_open_of_mem (above : Leads root trail parent) (opened : trail.IsOpen)
    (below : node ∈ parent.preorder) :
    (∃ trail, Leads root trail node ∧ trail.IsOpen) ∨
      ∃ trail outer, Leads root trail outer ∧ trail.IsOpen ∧
        ((∃ name ∈ outer.children, outer.isCallName name = true ∧ node ∈ name.preorder) ∨
          outer.kind.isIdentifier = true ∧
            node ∈ Node.preorder.preorderAll outer.children) := by
  induction parent using Node.inductionOnChildren generalizing trail with
  | step parent ih =>
      rw [Node.preorder_eq] at below
      rcases List.mem_cons.mp below with rfl | deeper
      · exact .inl ⟨trail, above, opened⟩
      · obtain ⟨child, member, within⟩ := Node.mem_preorderAll.mp deeper
        obtain ⟨before, after, children⟩ := List.append_of_mem member
        cases named : parent.isCallName child with
        | true => exact .inr ⟨trail, parent, above, opened, .inl ⟨child, member, named, within⟩⟩
        | false =>
            cases isIdentifier : parent.kind.isIdentifier with
            | true => exact .inr ⟨trail, parent, above, opened, .inr ⟨isIdentifier, deeper⟩⟩
            | false =>
                exact ih child member (.child above children named)
                  (List.forall_mem_cons.mpr ⟨isIdentifier, opened⟩) within

end JavaStructure.Syntax
