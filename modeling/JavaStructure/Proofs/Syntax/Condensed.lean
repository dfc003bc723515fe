/-
# Condensed trees

A binary expression that is an operand of another one can be left out and its operands put in
its place. A condensed tree has all of them left out, so it is the same however the operators
of an expression are grouped. Ids may be renamed on the way: a condensed tree with distinct ids
can be given the ids of its positions in pre-order, by a renaming that keeps ids apart.
-/

import JavaStructure.Proofs.Grammar.Numbering
import Mathlib.Data.List.Flatten
import Mathlib.Data.List.Nodup

namespace JavaStructure.Syntax

/-- The construct that binary expressions are shown as. -/
def binaryKind : Kind := .other "binary_expression"

namespace Node

open preorder (preorderAll)
open number (numberAll)

variable {rename : Nat → Nat} {node : Node} {nodes : List Node} {role : Role}

/-- The nodes that are put in the place of an operand: a binary expression without a role gives
way to its own operands. -/
def spread (node : Node) : List Node :=
  if node.kind = binaryKind ∧ node.role = none then node.children else [node]

/-- The children of a construct, operands spread out. -/
def gathered (kind : Kind) (children : List Node) : List Node :=
  if kind = binaryKind then children.flatMap spread else children

/-- A tree with the operands of binary expressions spread out, and with other ids. -/
def condensed (rename : Nat → Nat) : Node → Node
  | ⟨id, kind, role, text, line, children⟩ =>
      ⟨rename id, kind, role, text, line, gathered kind (condensedAll rename children)⟩
where
  /-- The trees of a list, condensed one by one. -/
  condensedAll (rename : Nat → Nat) : List Node → List Node
    | [] => []
    | child :: rest => condensed rename child :: condensedAll rename rest

theorem condensedAll_eq (rename : Nat → Nat) (nodes : List Node) :
    condensed.condensedAll rename nodes = nodes.map (condensed rename) := by
  induction nodes with
  | nil => rfl
  | cons child rest ih => rw [condensed.condensedAll, ih, List.map_cons]

theorem condensed_eq (rename : Nat → Nat) (node : Node) :
    node.condensed rename =
      ⟨rename node.id, node.kind, node.role, node.text, node.line,
        gathered node.kind (node.children.map (condensed rename))⟩ := by
  obtain ⟨id, kind, role, text, line, children⟩ := node
  rw [condensed, condensedAll_eq]

@[simp]
theorem condensed_id (rename : Nat → Nat) (node : Node) :
    (node.condensed rename).id = rename node.id := by
  rw [condensed_eq]

@[simp]
theorem condensed_kind (rename : Nat → Nat) (node : Node) :
    (node.condensed rename).kind = node.kind := by
  rw [condensed_eq]

@[simp]
theorem condensed_role (rename : Nat → Nat) (node : Node) :
    (node.condensed rename).role = node.role := by
  rw [condensed_eq]

@[simp]
theorem condensed_text (rename : Nat → Nat) (node : Node) :
    (node.condensed rename).text = node.text := by
  rw [condensed_eq]

@[simp]
theorem condensed_name? (rename : Nat → Nat) (node : Node) :
    (node.condensed rename).name? = node.name? := by
  rw [name?, name?, condensed_kind]

theorem condensed_children (rename : Nat → Nat) (node : Node) :
    (node.condensed rename).children =
      gathered node.kind (node.children.map (condensed rename)) := by
  rw [condensed_eq]

/-- Only below binary expressions operands are spread out. -/
theorem condensed_children_of_ne (rename : Nat → Nat) (other : node.kind ≠ binaryKind) :
    (node.condensed rename).children = node.children.map (condensed rename) := by
  rw [condensed_children, gathered, if_neg other]

theorem childAs_condensed (rename : Nat → Nat) (other : node.kind ≠ binaryKind) (role : Role) :
    (node.condensed rename).childAs role = (node.childAs role).map (condensed rename) := by
  rw [childAs, condensed_children_of_ne rename other, List.find?_map, childAs]
  simp only [Function.comp_def, condensed_role]

theorem childrenAs_condensed (rename : Nat → Nat) (other : node.kind ≠ binaryKind) (role : Role) :
    (node.condensed rename).childrenAs role = (node.childrenAs role).map (condensed rename) := by
  rw [childrenAs, condensed_children_of_ne rename other, List.filter_map, childrenAs]
  simp only [Function.comp_def, condensed_role]

/-- Spreading operands out makes no difference to what is collected, if they can be spread. -/
theorem flatMap_gathered {α : Type} {collect : Node → List α}
    (spreads : ∀ node : Node, node.spread.flatMap collect = collect node) (kind : Kind)
    (children : List Node) :
    (gathered kind children).flatMap collect = children.flatMap collect := by
  rw [gathered]
  split
  · rw [List.flatMap_assoc]
    exact List.flatMap_congr fun node _ => spreads node
  · rfl

/-- What is read off a condensed tree is the same, as long as nothing is read off binary
expressions and nothing off ids and operands. -/
theorem filterMap_preorder_condensed {α : Type} {read : Node → Option α}
    (unread : ∀ node : Node, node.kind = binaryKind → read node = none)
    (same : ∀ node : Node, read (node.condensed rename) = read node) (node : Node) :
    (node.condensed rename).preorder.filterMap read = node.preorder.filterMap read := by
  have spreads (node : Node) :
      (node.spread.flatMap fun inner => inner.preorder.filterMap read) =
        node.preorder.filterMap read := by
    rw [spread]
    split
    · next operand => rw [filterMap_preorder read node, unread node operand.1, Option.toList_none,
        List.nil_append]
    · exact List.flatMap_singleton ..
  induction node using inductionOnChildren with
  | step node ih =>
      calc (node.condensed rename).preorder.filterMap read
        _ = (read node).toList ++
            (gathered node.kind (node.children.map (condensed rename))).flatMap
              fun inner => inner.preorder.filterMap read := by
          rw [filterMap_preorder, same, condensed_children]
        _ = (read node).toList ++ node.children.flatMap fun child =>
            (child.condensed rename).preorder.filterMap read := by
          rw [flatMap_gathered spreads, List.flatMap_map]
        _ = (read node).toList ++ node.children.flatMap fun child =>
            child.preorder.filterMap read := by
          rw [List.flatMap_congr ih]
        _ = node.preorder.filterMap read := (filterMap_preorder read node).symm

/-- A node as it shows apart from its id and its children. -/
structure Face where
  kind : Kind
  role : Option Role
  text : String
  line : Nat
  deriving DecidableEq

/-- How a node shows. Binary expressions do not show. -/
def face? (node : Node) : Option Face :=
  if node.kind = binaryKind then none else some ⟨node.kind, node.role, node.text, node.line⟩

/-- The nodes of a tree in pre-order, binary expressions left out. -/
def faces (node : Node) : List Face :=
  node.preorder.filterMap face?

/-- A condensed tree shows the same nodes but for the binary expressions. -/
theorem faces_condensed (rename : Nat → Nat) (node : Node) :
    (node.condensed rename).faces = node.faces :=
  filterMap_preorder_condensed (fun _ binary => if_pos binary) (fun node => by rw [condensed_eq])
    node

/-- A tree with other ids. -/
def renamed (rename : Nat → Nat) : Node → Node
  | ⟨id, kind, role, text, line, children⟩ =>
      ⟨rename id, kind, role, text, line, renamedAll rename children⟩
where
  /-- The trees of a list with other ids. -/
  renamedAll (rename : Nat → Nat) : List Node → List Node
    | [] => []
    | child :: rest => renamed rename child :: renamedAll rename rest

theorem renamed_eq (rename : Nat → Nat) (node : Node) :
    node.renamed rename =
      ⟨rename node.id, node.kind, node.role, node.text, node.line,
        node.children.map (renamed rename)⟩ := by
  have all (nodes : List Node) : renamed.renamedAll rename nodes = nodes.map (renamed rename) := by
    induction nodes with
    | nil => rfl
    | cons child rest ih => rw [renamed.renamedAll, ih, List.map_cons]
  obtain ⟨id, kind, role, text, line, children⟩ := node
  rw [renamed, all]

theorem gathered_renamed (rename : Nat → Nat) (kind : Kind) (children : List Node) :
    gathered kind (children.map (renamed rename)) =
      (gathered kind children).map (renamed rename) := by
  have spread_renamed (node : Node) :
      (node.renamed rename).spread = node.spread.map (renamed rename) := by
    rw [spread, spread, renamed_eq]
    split <;> simp [renamed_eq]
  rw [gathered, gathered]
  split
  · simp only [List.flatMap_map, List.map_flatMap, spread_renamed]
  · rfl

/-- Ids can be renamed when a tree is condensed, or afterwards. -/
theorem condensed_renamed (first second : Nat → Nat) (node : Node) :
    (node.condensed first).renamed second = node.condensed (second ∘ first) := by
  induction node using inductionOnChildren with
  | step node ih =>
      have children : (node.children.map (condensed first)).map (renamed second) =
          node.children.map (condensed (second ∘ first)) := by
        rw [List.map_map]
        exact List.map_congr_left ih
      rw [condensed_eq, condensed_eq, ← children, gathered_renamed, renamed_eq]
      rfl

theorem preorder_renamed (rename : Nat → Nat) (node : Node) :
    (node.renamed rename).preorder = node.preorder.map (renamed rename) := by
  induction node using inductionOnChildren with
  | step node ih =>
      have children : preorderAll (node.renamed rename).children =
          (preorderAll node.children).map (renamed rename) := by
        rw [renamed_eq, preorderAll_eq, preorderAll_eq, List.flatMap_map, List.map_flatMap]
        exact List.flatMap_congr ih
      rw [preorder_eq, preorder_eq, children, List.map_cons]

theorem size_renamed (rename : Nat → Nat) (node : Node) :
    (node.renamed rename).size = node.size := by
  calc (node.renamed rename).size
    _ = (node.preorder.map (renamed rename)).length := by
      rw [← length_preorder, preorder_renamed]
    _ = node.size := by rw [List.length_map, length_preorder]

theorem numberAll_renamed
    (each : ∀ node ∈ nodes, ∀ next, (node.renamed rename).number next = node.number next)
    (next : Nat) : numberAll next (nodes.map (renamed rename)) = numberAll next nodes := by
  induction nodes generalizing next with
  | nil => rfl
  | cons node rest ih =>
      obtain ⟨own, later⟩ := List.forall_mem_cons.mp each
      calc numberAll next ((node :: rest).map (renamed rename))
        _ = (node.renamed rename).number next ::
            numberAll (next + (node.renamed rename).size) (rest.map (renamed rename)) := by
          rw [List.map_cons, numberAll]
        _ = node.number next :: numberAll (next + node.size) rest := by
          rw [own, size_renamed, ih later]
        _ = numberAll next (node :: rest) := by rw [numberAll]

/-- Numbering does not depend on earlier ids. -/
theorem number_renamed (rename : Nat → Nat) (node : Node) (next : Nat) :
    (node.renamed rename).number next = node.number next := by
  induction node using inductionOnChildren generalizing next with
  | step node ih =>
      obtain ⟨id, kind, role, text, line, children⟩ := node
      rw [renamed_eq, number, number, numberAll_renamed ih]

theorem renamed_eq_numberAll
    (each : ∀ node ∈ nodes, ∀ next, (node.preorder.map (·.id)).map rename =
      List.range' next node.size → node.renamed rename = node.number next) {next : Nat}
    (positions : (idsAmong nodes).map rename = List.range' next (size.sizeAll nodes)) :
    nodes.map (renamed rename) = numberAll next nodes := by
  induction nodes generalizing next with
  | nil => rfl
  | cons node rest ih =>
      obtain ⟨own, later⟩ := List.forall_mem_cons.mp each
      rw [idsAmong_cons, size.sizeAll, List.map_append, ← List.range'_append_1] at positions
      have length : ((node.preorder.map (·.id)).map rename).length =
          (List.range' next node.size).length := by
        rw [List.length_map, List.length_map, length_preorder, List.length_range']
      obtain ⟨first, others⟩ := List.append_inj positions length
      rw [List.map_cons, numberAll, own next first, ih later others]

/-- Ids that are renamed to the positions in pre-order number a tree. -/
theorem renamed_eq_number {next : Nat}
    (positions : (node.preorder.map (·.id)).map rename = List.range' next node.size) :
    node.renamed rename = node.number next := by
  induction node using inductionOnChildren generalizing next with
  | step node ih =>
      obtain ⟨id, kind, role, text, line, children⟩ := node
      rw [preorder_eq, size_eq, Nat.add_comm 1, List.range'_succ] at positions
      obtain ⟨own, later⟩ := List.cons.inj positions
      have below := renamed_eq_numberAll (fun child member _ => ih child member) later
      rw [renamed_eq, number, own, below]

/-- Different numbers are told apart by their places in a list, those of the list first. -/
def placeIn (ids : List Nat) (id : Nat) : Nat :=
  if id ∈ ids then ids.idxOf id else ids.length + id

theorem placeIn_injective (ids : List Nat) : Function.Injective (placeIn ids) := by
  intro first second same
  rw [placeIn, placeIn] at same
  split at same
  · next inside =>
      have bound := List.idxOf_lt_length_of_mem inside
      split at same
      · exact (List.idxOf_inj inside).mp same
      · omega
  · split at same
    · next inside =>
        have bound := List.idxOf_lt_length_of_mem inside
        omega
    · omega

theorem map_placeIn {ids : List Nat} (distinct : ids.Nodup) :
    ids.map (placeIn ids) = List.range ids.length := by
  refine List.ext_getElem (by simp) fun position inside _ => ?_
  rw [List.getElem_map, List.getElem_range, placeIn, if_pos (List.getElem_mem _),
    distinct.idxOf_getElem]

theorem idsAmong_eq (nodes : List Node) :
    idsAmong nodes = nodes.flatMap fun node => node.preorder.map (·.id) := by
  rw [idsAmong, preorderAll_eq, List.map_flatMap]

theorem idsAmong_spread_sublist (node : Node) :
    (idsAmong node.spread).Sublist (node.preorder.map (·.id)) := by
  rw [spread]
  split
  · rw [preorder_eq, List.map_cons]
    exact List.sublist_cons_self ..
  · simp [idsAmong, preorderAll]

theorem idsAmong_gathered_sublist (kind : Kind) (children : List Node) :
    (idsAmong (gathered kind children)).Sublist (idsAmong children) := by
  rw [gathered]
  split
  · rw [idsAmong_eq, List.flatMap_assoc, idsAmong_eq]
    refine List.Sublist.flatMap_right children fun child _ => ?_
    rw [← idsAmong_eq]
    exact idsAmong_spread_sublist child
  · exact List.Sublist.refl _

/-- A condensed tree that keeps its ids has no others. -/
theorem preorder_condensed_sublist (node : Node) :
    ((node.condensed fun id => id).preorder.map (·.id)).Sublist (node.preorder.map (·.id)) := by
  induction node using inductionOnChildren with
  | step node ih =>
      have children : (idsAmong (node.children.map (condensed fun id => id))).Sublist
          (idsAmong node.children) := by
        rw [idsAmong_eq, idsAmong_eq, List.flatMap_map]
        exact List.Sublist.flatMap_right node.children ih
      rw [preorder_eq, preorder_eq, List.map_cons, List.map_cons, condensed_id, condensed_children]
      exact ((idsAmong_gathered_sublist _ _).trans children).cons_cons node.id

/-- What ids a tree was numbered with does not show when they are all made the same. -/
theorem condensed_number (node : Node) (next same : Nat) :
    (node.number next).condensed (fun _ => same) = node.condensed fun _ => same := by
  induction node using inductionOnChildren generalizing next with
  | step node ih =>
      have children (next : Nat) {nodes : List Node} (inside : nodes ⊆ node.children) :
          (numberAll next nodes).map (condensed fun _ => same) =
            nodes.map (condensed fun _ => same) := by
        induction nodes generalizing next with
        | nil => rfl
        | cons child rest ihRest =>
            obtain ⟨member, later⟩ := List.cons_subset.mp inside
            rw [numberAll, List.map_cons, List.map_cons, ih child member, ihRest _ later]
      obtain ⟨id, kind, role, text, line, below⟩ := node
      rw [number, condensed_eq, condensed_eq, children _ (List.Subset.refl _)]

/-- A condensed tree is given the ids of its positions by a renaming that keeps ids apart. -/
theorem exists_condensed_eq_number (distinct : node.HasDistinctIds) :
    ∃ rename : Nat → Nat, Function.Injective rename ∧
      node.condensed rename = (node.condensed fun _ => 0).number 0 := by
  let kept := node.condensed fun id => id
  have distinctKept : (kept.preorder.map (·.id)).Nodup :=
    distinct.sublist (preorder_condensed_sublist node)
  have positions := map_placeIn distinctKept
  rw [List.length_map, length_preorder, List.range_eq_range'] at positions
  let place := placeIn (kept.preorder.map (·.id))
  refine ⟨place, placeIn_injective _, ?_⟩
  calc node.condensed place
      = kept.renamed place := (condensed_renamed (fun id => id) place node).symm
    _ = kept.number 0 := renamed_eq_number positions
    _ = (kept.renamed fun _ => 0).number 0 := (number_renamed _ kept 0).symm
    _ = (node.condensed fun _ => 0).number 0 := by
      rw [condensed_renamed]
      rfl

end Node

end JavaStructure.Syntax
