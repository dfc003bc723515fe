/-
# Cases of a switch

A switch block consists of groups, each with its labels and its statements. Every label value
becomes a case of its own, and the last case of a group holds all that the group holds. In the
colon form the groups themselves leave no trace: the cases can be read off the label values and
the statements as they follow each other, so a block may be grouped in any other way.
-/

import JavaStructure.Proofs.Building.Nesting
import JavaStructure.Proofs.Grammar.Constructs
import JavaStructure.Proofs.Grammar.Numbering

namespace JavaStructure

namespace Grammar

open Counted (MakesAll)
open Syntax (Kind Role)
open Sketch.fill (fillAll)

/-- A case of a switch: the label value that it stands on, or the label itself if that has no
values, and what belongs to the case. -/
structure SwitchCase where
  place : Node
  value : Option Node
  statements : List Node
  arrow : Bool

namespace SwitchCase

/-- The sketch of a case. -/
def sketch (entry : SwitchCase) : Sketch :=
  Node.caseSketch (entry.place, entry.value) entry.arrow entry.statements

/-- The tree of a case before ids are given. It has a body if it has statements, and under it
stand the value and the statements, lowered in their order. -/
def tree (form : ChainForm) (entry : SwitchCase) : Syntax.Node where
  id := 0
  kind := .caseLabel (entry.value.map (·.text)) (!entry.statements.isEmpty) entry.arrow
  role := none
  text := entry.place.text
  line := entry.place.firstRow + 1
  children :=
    entry.value.toList.flatMap (Node.lower form (some .label)) ++
      entry.statements.flatMap (Node.lower form none)

theorem fill_sketch (form : ChainForm) (entry : SwitchCase) :
    entry.sketch.fill (Node.lower form) = [entry.tree form] := by
  rw [sketch, Node.caseSketch, Sketch.of, Sketch.fill, Sketch.fillAll_append,
    Sketch.fillAll_eq_flatMap, Sketch.fillAll_eq_flatMap, List.flatMap_map, List.flatMap_map]
  rfl

theorem fillAll_sketches (form : ChainForm) (cases : List SwitchCase) :
    fillAll (Node.lower form) (cases.map sketch) = cases.map (tree form) := by
  rw [Sketch.fillAll_eq_flatMap, List.flatMap_map, List.map_eq_flatMap]
  exact List.flatMap_congr fun entry _ => entry.fill_sketch form

end SwitchCase

/-- What stands in a switch block: a label value, or a label without values, or a statement. -/
inductive BlockItem
  | label (place : Node) (value : Option Node)
  | statement (node : Node)

/-- Put an item in front of statements that belong to no case yet, and of later cases. A label
takes the statements. -/
def BlockItem.before : BlockItem → List Node × List SwitchCase → List Node × List SwitchCase
  | .label place value, (statements, later) => ([], ⟨place, value, statements, false⟩ :: later)
  | .statement node, (statements, later) => (node :: statements, later)

/-- The cases that items give: each label with the statements up to the next one. -/
def casesAmong (items : List BlockItem) : List SwitchCase :=
  (items.foldr BlockItem.before ([], [])).2

namespace Node

variable {form : ChainForm} {role : Option Role} {node other block blockToo group : Node}

/-- The labels of a group. -/
def caseLabels (group : Node) : List Node :=
  group.parts.filter isCaseLabel

/-- The statements of a group. -/
def caseStatements (group : Node) : List Node :=
  group.parts.filter fun part => !part.isCaseLabel

/-- A group that holds a label. -/
structure IsLabelledGroup (group : Node) : Prop where
  isGroup : group.isCaseGroup = true
  labelled : group.caseLabels ≠ []

/-- The cases of some label values in one group: the last one has the statements, and the arrow
if there is one. -/
def casesOf (arrow : Bool) (statements : List Node) (entries : List (Node × Option Node)) :
    List SwitchCase :=
  entries.mapIdx fun index entry =>
    if index + 1 = entries.length then ⟨entry.1, entry.2, statements, arrow⟩
    else ⟨entry.1, entry.2, [], false⟩

/-- The cases of a group, one for each of its label values. -/
def groupCases (group : Node) : List SwitchCase :=
  casesOf group.isArrowGroup group.caseStatements (labelEntries group.caseLabels)

/-- What stands in a group, its labels value by value. The grammar puts all labels of a group in
front of its statements. -/
def groupItems (group : Node) : List BlockItem :=
  (labelEntries group.caseLabels).map (fun entry => .label entry.1 entry.2) ++
    group.caseStatements.map .statement

/-- What stands in a block of groups, one item after the other. -/
def blockItems (block : Node) : List BlockItem :=
  block.parts.flatMap groupItems

/-- A label has an entry whether it has values or not. -/
theorem labelEntries_ne_nil {labels : List Node} (labelled : labels ≠ []) :
    labelEntries labels ≠ [] := by
  obtain ⟨label, rest, rfl⟩ := List.exists_cons_of_ne_nil labelled
  rw [labelEntries, List.flatMap_cons]
  cases label.parts <;> exact List.cons_ne_nil _ _

/-- All cases but the last are labels and nothing else. -/
theorem casesOf_cons (arrow : Bool) (statements : List Node) (entry next : Node × Option Node)
    (rest : List (Node × Option Node)) :
    casesOf arrow statements (entry :: next :: rest) =
      ⟨entry.1, entry.2, [], false⟩ :: casesOf arrow statements (next :: rest) := by
  rw [casesOf, List.mapIdx_cons, casesOf]
  simp only [List.length_cons, Nat.add_right_cancel_iff]
  rfl

theorem caseSketches_eq (arrow : Bool) (statements : List Node)
    (entries : List (Node × Option Node)) :
    caseSketches arrow statements entries =
      (casesOf arrow statements entries).map SwitchCase.sketch := by
  induction entries with
  | nil => rfl
  | cons entry rest ih =>
      cases rest with
      | nil => rfl
      | cons next rest =>
          rw [casesOf_cons, List.map_cons, ← ih]
          rfl

/-- A switch statement or expression with a block that consists of labelled groups. -/
structure IsSwitch (node block : Node) : Prop where
  kind : node.kind = "switch_expression" ∨ node.kind = "switch_statement"
  proper : node.extra = false
  body : node.childOf "body" = some block
  groups : ∀ part ∈ block.parts, part.IsLabelledGroup

/-- The tree of a switch before ids are given: its condition, then its cases. -/
def switchTree (form : ChainForm) (role : Option Role) (node : Node) (cases : List SwitchCase) :
    Syntax.Node where
  id := 0
  kind := .switch
  role := role
  text := node.text
  line := node.firstRow + 1
  children :=
    node.condition?.toList.flatMap (lower form (some .condition)) ++
      cases.map (SwitchCase.tree form)

/-- In a block of groups every group gives its cases. -/
theorem switchEntries_eq {parts : List Node} (groups : ∀ part ∈ parts, part.IsLabelledGroup) :
    switchEntries [] [] parts = (parts.flatMap groupCases).map SwitchCase.sketch := by
  induction parts with
  | nil => rfl
  | cons part rest ih =>
      obtain ⟨own, later⟩ := List.forall_mem_cons.mp groups
      calc switchEntries [] [] (part :: rest)
        _ = caseSketches part.isArrowGroup part.caseStatements (labelEntries part.caseLabels) ++
            switchEntries [] [] rest := by
          rw [switchEntries, if_pos own.isGroup, List.partition_eq_filter_filter]
          rfl
        _ = part.groupCases.map SwitchCase.sketch ++
            (rest.flatMap groupCases).map SwitchCase.sketch := by
          rw [ih later, groupCases, ← caseSketches_eq]
        _ = ((part :: rest).flatMap groupCases).map SwitchCase.sketch := by
          rw [List.flatMap_cons, List.map_append]

/-- A switch gives its tree over the cases of all groups. -/
theorem IsSwitch.lower_eq (isSwitch : node.IsSwitch block) :
    node.lower form role = [node.switchTree form role (block.parts.flatMap groupCases)] := by
  have sketch : node.sketch form role = [node.switchSketch role] := by
    have kept : ¬(node.extra ∨ node.kind ∈ skippedRules) := by
      rcases isSwitch.kind with kind | kind <;> simp [isSwitch.proper, kind, skippedRules]
    rw [Node.sketch, if_neg kept]
    rcases isSwitch.kind with kind | kind <;> simp only [kind]
  rw [Node.lower_eq, sketch, switchSketch, isSwitch.body]
  simp only [switchEntries_eq isSwitch.groups, Sketch.fillAll_eq_flatMap, List.flatMap_singleton,
    Sketch.of, Sketch.fill]
  rw [← Sketch.fillAll_eq_flatMap, Sketch.fillAll_append, SwitchCase.fillAll_sketches,
    Sketch.fillAll_eq_flatMap, pendingCondition, List.flatMap_map]
  rfl

theorem foldr_statements (statements : List Node) (later : List SwitchCase) :
    (statements.map BlockItem.statement).foldr BlockItem.before ([], later) =
      (statements, later) := by
  induction statements with
  | nil => rfl
  | cons statement rest ih => rw [List.map_cons, List.foldr_cons, ih]; rfl

/-- The last label in front of some statements takes them. -/
theorem foldr_labels {entries : List (Node × Option Node)} (labelled : entries ≠ [])
    (statements : List Node) (later : List SwitchCase) :
    (entries.map fun entry => BlockItem.label entry.1 entry.2).foldr BlockItem.before
        (statements, later) =
      ([], casesOf false statements entries ++ later) := by
  induction entries with
  | nil => exact absurd rfl labelled
  | cons entry rest ih =>
      cases rest with
      | nil => rfl
      | cons next rest =>
          rw [List.map_cons, List.foldr_cons, ih (List.cons_ne_nil _ _), casesOf_cons]
          rfl

/-- The items of a group of the colon form give its cases, whatever comes after them. -/
theorem foldr_groupItems (labelled : group.IsLabelledGroup) (colon : group.isArrowGroup = false)
    (later : List SwitchCase) :
    group.groupItems.foldr BlockItem.before ([], later) = ([], group.groupCases ++ later) := by
  rw [groupItems, List.foldr_append, foldr_statements,
    foldr_labels (labelEntries_ne_nil labelled.labelled), groupCases, colon]

/-- In the colon form the cases of a block are those among its items. -/
theorem flatMap_groupCases {parts : List Node} (groups : ∀ part ∈ parts, part.IsLabelledGroup)
    (colon : ∀ part ∈ parts, part.isArrowGroup = false) :
    parts.flatMap groupCases = casesAmong (parts.flatMap groupItems) := by
  have folded : (parts.flatMap groupItems).foldr BlockItem.before ([], []) =
      ([], parts.flatMap groupCases) := by
    induction parts with
    | nil => rfl
    | cons part rest ih =>
        obtain ⟨own, later⟩ := List.forall_mem_cons.mp groups
        obtain ⟨ownColon, laterColon⟩ := List.forall_mem_cons.mp colon
        rw [List.flatMap_cons, List.foldr_append, ih later laterColon,
          foldr_groupItems own ownColon, List.flatMap_cons]
  rw [casesAmong, folded]

/-- No construct is a case by itself. -/
theorem sketch_isNoCase (form : ChainForm) (role : Option Role) (node : Node) :
    ∀ part ∈ node.sketch form role, ∃ kind role text line parts,
      part = .built kind role text line parts ∧ kind.isCase = false := by
  have single {sketch : Sketch} {source : Node} {kind : Kind} {role : Option Role}
      {parts : List Sketch} (built : sketch = .of source kind role parts)
      (noCase : kind.isCase = false) :
      ∀ part ∈ [sketch], ∃ kind role text line parts,
        part = .built kind role text line parts ∧ kind.isCase = false := by
    refine List.forall_mem_singleton.mpr ⟨_, _, _, _, _, built, noCase⟩
  unfold sketch
  split
  · simp
  · split
    case h_13 | h_14 | h_15 =>
      intro part member
      obtain ⟨declarator, -, rfl⟩ := List.mem_map.mp member
      exact ⟨_, _, _, _, _, rfl, rfl⟩
    case h_19 =>
      rw [resource]
      split <;> exact single rfl rfl
    all_goals exact single rfl rfl

/-- What is lowered outside of a switch block is no case. -/
theorem lower_isNoCase (form : ChainForm) (role : Option Role) (node : Node) :
    ∀ made ∈ node.lower form role, made.kind.isCase = false := by
  intro made member
  rw [lower_eq, Sketch.fillAll_eq_flatMap] at member
  obtain ⟨part, inside, filled⟩ := List.mem_flatMap.mp member
  obtain ⟨kind, role, text, line, parts, rfl, noCase⟩ := sketch_isNoCase form role node part inside
  rw [Sketch.fill] at filled
  rw [List.mem_singleton.mp filled]
  exact noCase

/-- The children of a switch that are cases are its cases. -/
theorem filter_switchTree (form : ChainForm) (role : Option Role) (node : Node)
    (cases : List SwitchCase) :
    (node.switchTree form role cases).children.filter (fun child => child.kind.isCase) =
      cases.map (SwitchCase.tree form) := by
  rw [switchTree, List.filter_append, List.filter_eq_nil_iff.mpr, List.nil_append,
    List.filter_eq_self.mpr]
  · intro child member
    obtain ⟨entry, -, rfl⟩ := List.mem_map.mp member
    rfl
  · intro child member
    obtain ⟨condition, -, lowered⟩ := List.mem_flatMap.mp member
    simp [lower_isNoCase form _ condition child lowered]

/-- A switch is lowered to its tree, numbered, if the lowering goes deep enough. -/
theorem IsSwitch.makes (isSwitch : node.IsSwitch block) (form : ChainForm) (role : Option Role)
    {depth : Nat} (deep : node.size ≤ depth) :
    MakesAll (lowerInto form depth role node)
      [node.switchTree form role (block.parts.flatMap groupCases)] := by
  rw [← isSwitch.lower_eq, ← lowerUpTo_eq form role deep]
  exact lowerInto_follows form depth role node

/-- Two switches over the same text and condition whose blocks have the colon form and hold the
same label values and statements in the same order, in whatever groups. -/
structure IsRegrouped (node block other blockToo : Node) : Prop where
  text : other.text = node.text
  firstRow : other.firstRow = node.firstRow
  condition : other.condition? = node.condition?
  colon : ∀ part ∈ block.parts, part.isArrowGroup = false
  colonToo : ∀ part ∈ blockToo.parts, part.isArrowGroup = false
  items : blockToo.blockItems = block.blockItems

/-- The lowering of a switch keeps every label and every statement: its cases are one for each
label value of each group, in source order, and the last case of a group has the statements of
the group and its arrow. How the label values and the statements of a block in the colon form are
grouped makes no difference at all, the ids of the nodes included. -/
theorem switch_keeps_cases (form : ChainForm) (role : Option Role) {node block : Node}
    (isSwitch : node.IsSwitch block) {depth : Nat} (deep : node.size ≤ depth) :
    (∃ made : Syntax.Node, MakesAll (lowerInto form depth role node) [made] ∧
      made.kind = .switch ∧ made.role = role ∧ made.text = node.text ∧
        made.children.filter (fun child => child.kind.isCase) =
          (block.parts.flatMap groupCases).map (SwitchCase.tree form)) ∧
    ∀ other blockToo : Node, other.IsSwitch blockToo → other.size ≤ depth →
      IsRegrouped node block other blockToo →
        lowerInto form depth role other = lowerInto form depth role node := by
  refine ⟨⟨_, isSwitch.makes form role deep, rfl, rfl, rfl,
    filter_switchTree form role node _⟩, ?_⟩
  intro other blockToo isSwitchToo deepToo regrouped
  have cases : blockToo.parts.flatMap groupCases = block.parts.flatMap groupCases :=
    calc blockToo.parts.flatMap groupCases
      _ = casesAmong (blockToo.parts.flatMap groupItems) :=
        flatMap_groupCases isSwitchToo.groups regrouped.colonToo
      _ = casesAmong (block.parts.flatMap groupItems) := congrArg casesAmong regrouped.items
      _ = block.parts.flatMap groupCases :=
        (flatMap_groupCases isSwitch.groups regrouped.colon).symm
  have same : other.switchTree form role (blockToo.parts.flatMap groupCases) =
      node.switchTree form role (block.parts.flatMap groupCases) := by
    rw [cases, switchTree, switchTree, regrouped.text, regrouped.firstRow, regrouped.condition]
  funext next
  have made := isSwitchToo.makes form role deepToo next
  rw [same] at made
  exact made.trans (isSwitch.makes form role deep next).symm

/-- A label with some values, the default if there are none. -/
def labelOf (values : List String) : Node :=
  .bare "switch_label" none "" (values.map fun value =>
    .bare "decimal_integer_literal" none value [])

/-- A statement of one word. -/
def statementOf (text : String) : Node :=
  .bare "expression_statement" none text []

/-- A switch over a block with some groups. -/
def switchOver (groups : List Node) : Node :=
  .bare "switch_expression" none "switch (n)"
    [.bare "parenthesized_expression" (some "condition") "(n)" [.bare "identifier" none "n" []],
      .bare "switch_block" (some "body") "" groups]

/-- The groups of `case 1, 2: f; default: g;`. -/
def jointGroups : List Node :=
  [.bare "switch_block_statement_group" none "" [labelOf ["1", "2"], statementOf "f"],
    .bare "switch_block_statement_group" none "" [labelOf [], statementOf "g"]]

/-- The groups of `case 1: case 2: f; default: g;`. -/
def splitGroups : List Node :=
  [.bare "switch_block_statement_group" none "" [labelOf ["1"]],
    .bare "switch_block_statement_group" none "" [labelOf ["2"], statementOf "f"],
    .bare "switch_block_statement_group" none "" [labelOf [], statementOf "g"]]

/-- The groups of `case 1, 2 -> f; default -> g;`. -/
def ruleGroups : List Node :=
  [.bare "switch_rule" none "" [labelOf ["1", "2"], statementOf "f"],
    .bare "switch_rule" none "" [labelOf [], statementOf "g"]]

/-- A comma and a second label are the same thing, and an arrow belongs to the last case. -/
theorem jointSwitch_keeps_cases :
    lowerInto .flat 14 none (switchOver splitGroups) =
        lowerInto .flat 14 none (switchOver jointGroups) ∧
      ∃ made : Syntax.Node, MakesAll (lowerInto .flat 14 none (switchOver ruleGroups)) [made] ∧
        (made.children.filter (fun child => child.kind.isCase)).map (·.kind) =
          [.caseLabel (some "1") false false, .caseLabel (some "2") true true,
            .caseLabel none true true] := by
  have isSwitch (groups : List Node)
      (labelled : ∀ part ∈ groups, part.isProper = true ∧ part.isCaseGroup = true ∧
        part.caseLabels.isEmpty = false) :
      (switchOver groups).IsSwitch (.bare "switch_block" (some "body") "" groups) := by
    refine ⟨.inl rfl, rfl, rfl, fun part member => ?_⟩
    obtain ⟨-, isGroup, nonempty⟩ := labelled part (mem_children_of_mem_parts member)
    exact ⟨isGroup, by simpa using nonempty⟩
  have joint := isSwitch jointGroups (by decide)
  have split := isSwitch splitGroups (by decide)
  have rules := isSwitch ruleGroups (by decide)
  refine ⟨?_, ?_⟩
  · have deep : (switchOver jointGroups).size ≤ 14 := by decide
    obtain ⟨-, same⟩ := switch_keeps_cases .flat none joint deep
    exact same _ _ split (by decide) ⟨rfl, rfl, rfl, by decide, by decide, rfl⟩
  · have deep : (switchOver ruleGroups).size ≤ 14 := by decide
    obtain ⟨⟨made, makes, -, -, -, cases⟩, -⟩ := switch_keeps_cases .flat none rules deep
    refine ⟨made, makes, ?_⟩
    rw [cases]
    rfl

end Node

end Grammar

end JavaStructure
