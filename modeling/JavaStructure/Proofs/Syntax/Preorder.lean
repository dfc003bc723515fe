/-
# Trees in pre-order

The nodes of a tree in source order, and the ids that numbering gives them. Numbering
changes nothing but ids, and all ids of a numbered tree are different.
-/

import JavaStructure.Syntax.Node
import Mathlib.Data.List.Basic

namespace JavaStructure.Syntax.Node

variable {root node child inner : Node} {nodes before after : List Node} {next : Nat}

theorem preorder_eq (node : Node) :
    node.preorder = node :: preorder.preorderAll node.children := by
  obtain ⟨id, kind, role, text, line, children⟩ := node
  rw [preorder]

theorem mem_preorder_self (node : Node) : node ∈ node.preorder := by
  rw [preorder_eq]
  exact List.mem_cons_self

theorem preorderAll_eq (nodes : List Node) :
    preorder.preorderAll nodes = nodes.flatMap preorder := by
  induction nodes with
  | nil => rfl
  | cons node rest ih => rw [preorder.preorderAll, ih, List.flatMap_cons]

theorem mem_preorderAll :
    inner ∈ preorder.preorderAll nodes ↔ ∃ node ∈ nodes, inner ∈ node.preorder := by
  rw [preorderAll_eq, List.mem_flatMap]

theorem mem_preorder_of_mem_children (member : child ∈ node.children)
    (below : inner ∈ child.preorder) : inner ∈ node.preorder := by
  rw [preorder_eq]
  exact List.mem_cons_of_mem _ (mem_preorderAll.mpr ⟨child, member, below⟩)

/-- What is below a node below a tree is below the tree. -/
theorem mem_preorder_trans (outer : node ∈ root.preorder) (below : inner ∈ node.preorder) :
    inner ∈ root.preorder := by
  induction root using inductionOnChildren with
  | step root ih =>
      rw [preorder_eq] at outer
      rcases List.mem_cons.mp outer with rfl | deeper
      · exact below
      · obtain ⟨child, member, within⟩ := mem_preorderAll.mp deeper
        exact mem_preorder_of_mem_children member (ih child member within)

theorem preorderAll_append (front back : List Node) :
    preorder.preorderAll (front ++ back) =
      preorder.preorderAll front ++ preorder.preorderAll back := by
  rw [preorderAll_eq, preorderAll_eq, preorderAll_eq, List.flatMap_append]

/-- What is read off a tree is read off its root and off the trees below. -/
theorem filterMap_preorder {α : Type} (read : Node → Option α) (node : Node) :
    node.preorder.filterMap read =
      (read node).toList ++ node.children.flatMap fun child => child.preorder.filterMap read := by
  rw [preorder_eq, List.filterMap_cons, preorderAll_eq, List.filterMap_flatMap]
  cases read node <;> rfl

/-- What is collected from the last child to the first, and from the node itself at the end,
stands in pre-order when it is read backwards. -/
theorem collected_eq {α : Type} {collect : Node → List α} {own : Node → Option α}
    (step : ∀ node : Node,
      collect node = node.children.reverse.flatMap collect ++ (own node).toList) (node : Node) :
    collect node = (node.preorder.filterMap own).reverse := by
  induction node using inductionOnChildren with
  | step node ih =>
      have single : (own node).toList.reverse = (own node).toList := by
        cases own node <;> rfl
      rw [step, filterMap_preorder, List.reverse_append, List.reverse_flatMap, single]
      refine congrArg (· ++ _) (List.flatMap_congr fun child member => ?_)
      exact ih child (List.mem_reverse.mp member)

/-- No two nodes of a tree have the same id. -/
def HasDistinctIds (root : Node) : Prop :=
  (root.preorder.map (·.id)).Nodup

instance (root : Node) : Decidable root.HasDistinctIds :=
  inferInstanceAs (Decidable (List.Nodup _))

/-- The ids of the nodes of some trees. -/
def idsAmong (nodes : List Node) : List Nat :=
  (preorder.preorderAll nodes).map (·.id)

@[simp]
theorem idsAmong_cons (node : Node) (rest : List Node) :
    idsAmong (node :: rest) = node.preorder.map (·.id) ++ idsAmong rest := by
  simp [idsAmong, preorder.preorderAll]

theorem idsAmong_children_subset (node : Node) :
    idsAmong node.children ⊆ node.preorder.map (·.id) := by
  rw [preorder_eq, List.map_cons, idsAmong]
  exact List.subset_cons_self ..

/-- In a tree with distinct ids the id of a node is not used below it. -/
theorem HasDistinctIds.notBelow (distinct : node.HasDistinctIds) :
    node.id ∉ idsAmong node.children := by
  rw [HasDistinctIds, preorder_eq, List.map_cons] at distinct
  exact (List.nodup_cons.mp distinct).1

/-- In a tree with distinct ids no id of a child is used below another child. -/
theorem HasDistinctIds.split (distinct : node.HasDistinctIds)
    (children : node.children = before ++ child :: after) :
    child.HasDistinctIds ∧ ∀ inner ∈ child.preorder,
      inner.id ∉ idsAmong before ∧ inner.id ∉ idsAmong after := by
  rw [HasDistinctIds, preorder_eq, children, preorderAll_append, preorder.preorderAll,
    List.map_cons, List.map_append, List.map_append, List.nodup_cons, List.nodup_append,
    List.nodup_append] at distinct
  obtain ⟨-, -, ⟨ownDistinct, -, apartAfter⟩, apartBefore⟩ := distinct
  refine ⟨ownDistinct, fun inner below => ?_⟩
  have member := List.mem_map_of_mem (f := fun inner : Node => inner.id) below
  exact ⟨fun used => apartBefore _ used _ (List.mem_append_left _ member) rfl,
    fun used => apartAfter _ member _ used rfl⟩

/-- In a tree with distinct ids, an id is used below one child at most. -/
theorem HasDistinctIds.child_unique (distinct : node.HasDistinctIds) {other : Node} {id : Nat}
    (inside : child ∈ node.children) (insideToo : other ∈ node.children)
    (used : id ∈ child.preorder.map (·.id)) (usedToo : id ∈ other.preorder.map (·.id)) :
    other = child := by
  obtain ⟨before, after, children⟩ := List.append_of_mem inside
  obtain ⟨inner, below, rfl⟩ := List.mem_map.mp used
  obtain ⟨notBefore, notAfter⟩ := (distinct.split children).2 inner below
  have among {nodes : List Node} (member : other ∈ nodes) : inner.id ∈ idsAmong nodes := by
    obtain ⟨found, belowOther, same⟩ := List.mem_map.mp usedToo
    exact List.mem_map.mpr ⟨found, mem_preorderAll.mpr ⟨other, member, belowOther⟩, same⟩
  rw [children] at insideToo
  rcases List.mem_append.mp insideToo with earlier | here
  · exact absurd (among earlier) notBefore
  · rcases List.mem_cons.mp here with same | later
    · exact same
    · exact absurd (among later) notAfter

theorem HasDistinctIds.of_mem (distinct : root.HasDistinctIds) (below : node ∈ root.preorder) :
    node.HasDistinctIds := by
  induction root using inductionOnChildren with
  | step root ih =>
      rw [preorder_eq] at below
      rcases List.mem_cons.mp below with rfl | deeper
      · exact distinct
      · obtain ⟨child, member, within⟩ := mem_preorderAll.mp deeper
        obtain ⟨before, after, children⟩ := List.append_of_mem member
        exact ih child member (distinct.split children).1 within

theorem number_kind (node : Node) (next : Nat) : (node.number next).kind = node.kind := by
  obtain ⟨id, kind, role, text, line, children⟩ := node
  rw [number]

theorem number_role (node : Node) (next : Nat) : (node.number next).role = node.role := by
  obtain ⟨id, kind, role, text, line, children⟩ := node
  rw [number]

theorem number_children (node : Node) (next : Nat) :
    (node.number next).children = number.numberAll (next + 1) node.children := by
  obtain ⟨id, kind, role, text, line, children⟩ := node
  rw [number]

theorem number_id (node : Node) (next : Nat) : (node.number next).id = next := by
  obtain ⟨id, kind, role, text, line, children⟩ := node
  rw [number]

theorem size_eq (node : Node) : node.size = 1 + size.sizeAll node.children := by
  obtain ⟨id, kind, role, text, line, children⟩ := node
  rw [size]

theorem idsAmong_numberAll
    (each : ∀ node ∈ nodes, ∀ next,
      (node.number next).preorder.map (·.id) = List.range' next node.size) (next : Nat) :
    idsAmong (number.numberAll next nodes) = List.range' next (size.sizeAll nodes) := by
  induction nodes generalizing next with
  | nil => simp [number.numberAll, idsAmong, preorder.preorderAll, size.sizeAll]
  | cons node rest ih =>
      calc idsAmong (number.numberAll next (node :: rest))
        _ = (node.number next).preorder.map (·.id) ++
            idsAmong (number.numberAll (next + node.size) rest) := by
          rw [number.numberAll, idsAmong_cons]
        _ = List.range' next node.size ++
            List.range' (next + node.size) (size.sizeAll rest) := by
          rw [each node List.mem_cons_self,
            ih fun later member => each later (List.mem_cons_of_mem _ member)]
        _ = List.range' next (size.sizeAll (node :: rest)) := by
          rw [List.range'_append_1, size.sizeAll]

/-- The ids of a numbered tree are those from the first on, in pre-order. -/
theorem map_id_preorder_number (node : Node) (next : Nat) :
    (node.number next).preorder.map (·.id) = List.range' next node.size := by
  induction node using inductionOnChildren generalizing next with
  | step node ih =>
      calc (node.number next).preorder.map (·.id)
        _ = next :: idsAmong (number.numberAll (next + 1) node.children) := by
          rw [preorder_eq, List.map_cons, number_id, number_children, ← idsAmong]
        _ = next :: List.range' (next + 1) (size.sizeAll node.children) := by
          rw [idsAmong_numberAll ih]
        _ = List.range' next node.size := by rw [size_eq, Nat.add_comm 1, List.range'_succ]

theorem number_hasDistinctIds (node : Node) (next : Nat) : (node.number next).HasDistinctIds := by
  rw [HasDistinctIds, map_id_preorder_number]
  exact List.nodup_range'

/-- A member of numbered trees is a numbered tree, behind as many others as before. -/
theorem split_numberAll (split : number.numberAll next nodes = before ++ child :: after) :
    ∃ front original back start, nodes = front ++ original :: back ∧
      before.length = front.length ∧ child = original.number start := by
  induction nodes generalizing next before with
  | nil => simp [number.numberAll] at split
  | cons node rest ih =>
      rw [number.numberAll] at split
      cases before with
      | nil =>
          obtain ⟨same, -⟩ := List.cons.inj split
          exact ⟨[], node, rest, next, rfl, rfl, same.symm⟩
      | cons first others =>
          obtain ⟨front, original, back, start, nodes, length, same⟩ :=
            ih (List.cons.inj split).2
          refine ⟨node :: front, original, back, start, ?_, ?_, same⟩
          · rw [nodes, List.cons_append]
          · rw [List.length_cons, List.length_cons, length]

/-- Every node of a numbered tree is one of the tree, numbered. -/
theorem mem_preorder_number (below : inner ∈ (node.number next).preorder) :
    ∃ original ∈ node.preorder, ∃ start, inner = original.number start := by
  induction node using inductionOnChildren generalizing next with
  | step node ih =>
      rw [preorder_eq, number_children] at below
      rcases List.mem_cons.mp below with rfl | deeper
      · exact ⟨node, node.mem_preorder_self, next, rfl⟩
      · obtain ⟨child, member, within⟩ := mem_preorderAll.mp deeper
        obtain ⟨before, after, split⟩ := List.append_of_mem member
        obtain ⟨front, original, back, start, children, -, rfl⟩ := split_numberAll split
        have inside : original ∈ node.children := by simp [children]
        obtain ⟨found, belowToo, start, same⟩ := ih original inside within
        exact ⟨found, mem_preorder_of_mem_children inside belowToo, start, same⟩

end JavaStructure.Syntax.Node
