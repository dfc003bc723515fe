/-
# Ids in pre-order

The lowering takes ids from a counter, construct by construct. What it makes is what the
sketches describe, numbered in pre-order from where the counter stands, and the counter moves
on by as many ids as nodes were made. This holds of every construct if it holds of the
lowering of its parts, and so it holds of whole trees.
-/

import JavaStructure.Grammar.Lowering
import JavaStructure.Proofs.Grammar.Sketches
import JavaStructure.Proofs.Syntax.Preorder

namespace JavaStructure

namespace Syntax.Node

theorem numberAll_append (front back : List Node) (next : Nat) :
    number.numberAll next (front ++ back) =
      number.numberAll next front ++ number.numberAll (next + size.sizeAll front) back := by
  induction front generalizing next with
  | nil => simp [number.numberAll, size.sizeAll]
  | cons node rest ih => simp [number.numberAll, size.sizeAll, ih, Nat.add_assoc]

theorem sizeAll_append (front back : List Node) :
    size.sizeAll (front ++ back) = size.sizeAll front + size.sizeAll back := by
  induction front with
  | nil => simp [size.sizeAll]
  | cons node rest ih => simp [size.sizeAll, ih, Nat.add_assoc]

end Syntax.Node

namespace Grammar

open Syntax (Kind Role)
open Syntax.Node (numberAll_append sizeAll_append)
open Syntax.Node.number (numberAll)
open Syntax.Node.size (sizeAll)
open Sketch.fill (fillAll)

namespace Counted

variable {program : Counted Syntax.Node} {plain : Syntax.Node}
  {front back : Counted (List Syntax.Node)} {before after : List Syntax.Node}

/-- A program makes a tree, numbered from the next id on. -/
def Makes (program : Counted Syntax.Node) (plain : Syntax.Node) : Prop :=
  ∀ next, program.run next = pure (plain.number next, next + plain.size)

/-- A program makes some trees one after the other, numbered from the next id on. -/
def MakesAll (program : Counted (List Syntax.Node)) (plain : List Syntax.Node) : Prop :=
  ∀ next, program.run next = pure (numberAll next plain, next + sizeAll plain)

theorem MakesAll.nil : MakesAll (pure []) [] := fun _ => rfl

theorem MakesAll.append (first : MakesAll front before) (second : MakesAll back after) :
    MakesAll (front ++ back) (before ++ after) := by
  intro next
  show StateT.run (do let before ← front; let after ← back; return before ++ after) next = _
  simp only [StateT.run_bind, first next, second (next + sizeAll before), pure_bind,
    StateT.run_pure]
  rw [numberAll_append, sizeAll_append, Nat.add_assoc]

theorem MakesAll.flatMap {nodes : List Node} {lower : Node → Counted (List Syntax.Node)}
    {plain : Node → List Syntax.Node}
    (each : ∀ node ∈ nodes, MakesAll (lower node) (plain node)) :
    MakesAll (nodes.flatMapM lower) (nodes.flatMap plain) := by
  induction nodes with
  | nil =>
      rw [List.flatMapM_nil]
      exact .nil
  | cons node rest ih =>
      obtain ⟨own, later⟩ := List.forall_mem_cons.mp each
      rw [List.flatMapM_cons, List.flatMap_cons]
      exact own.append (ih later)

theorem Makes.inRole (makes : program.Makes plain) (role : Role) :
    Makes (program.inRole role) { plain with role := some role } := by
  intro next
  obtain ⟨id, kind, unset, text, line, children⟩ := plain
  simp only [Counted.inRole, StateT.run_bind, makes next, pure_bind, StateT.run_pure]
  rfl

end Counted

namespace Node

open Counted (Makes MakesAll)

theorem run_make (node : Node) (kind : Kind) (next : Nat) :
    (node.make kind).run next =
      pure (⟨next, kind, none, node.text, node.firstRow + 1, []⟩, next + 1) := rfl

/-- A node that is made before what is below it has the first of all the ids. -/
theorem grow_makes (node : Node) (kind : Kind) {below : Counted (List Syntax.Node)}
    {plain : List Syntax.Node} (makes : MakesAll below plain) :
    Makes (node.grow kind below) ⟨0, kind, none, node.text, node.firstRow + 1, plain⟩ := by
  intro next
  simp only [grow, StateT.run_bind, run_make, makes (next + 1), pure_bind, StateT.run_pure,
    Syntax.Node.number, Syntax.Node.size, Nat.add_assoc]

section Constructs

variable (plain : Option Role → Node → List Syntax.Node)

/-- A program makes what some sketches describe. -/
def Draws (program : Counted (List Syntax.Node)) (sketches : List Sketch) : Prop :=
  MakesAll program (fillAll plain sketches)

/-- A program makes what a sketch describes, in a role of its own. -/
def Builds (own : Option Role) (program : Counted Syntax.Node)
    (sketch : Option Role → Sketch) : Prop :=
  ∃ made : Syntax.Node, program.Makes made ∧ made.role = own ∧
    ∀ role, Sketch.fill plain (sketch role) = [{ made with role }]

variable {plain} {front back : Counted (List Syntax.Node)} {before after : List Sketch}
  {program : Counted Syntax.Node} {own : Option Role} {sketch : Option Role → Sketch}

theorem Draws.nil : Draws plain (pure []) [] := MakesAll.nil

theorem Draws.append (first : Draws plain front before) (second : Draws plain back after) :
    Draws plain (front ++ back) (before ++ after) := by
  rw [Draws, Sketch.fillAll_append]
  exact MakesAll.append first second

theorem Draws.flatMap {nodes : List Node} {lower : Node → Counted (List Syntax.Node)}
    {sketches : Node → List Sketch}
    (each : ∀ node ∈ nodes, Draws plain (lower node) (sketches node)) :
    Draws plain (nodes.flatMapM lower) (nodes.flatMap sketches) := by
  rw [Draws, Sketch.fillAll_eq_flatMap, List.flatMap_assoc]
  simp only [← Sketch.fillAll_eq_flatMap]
  exact MakesAll.flatMap each

theorem grow_builds (node : Node) (kind : Kind) {below : Counted (List Syntax.Node)}
    {parts : List Sketch} (draws : Draws plain below parts) :
    Builds plain none (node.grow kind below) fun role => .of node kind role parts :=
  ⟨_, node.grow_makes kind draws, rfl, fun _ => rfl⟩

theorem make_builds (node : Node) (kind : Kind) :
    Builds plain none (node.make kind) fun role => .of node kind role [] :=
  ⟨⟨0, kind, none, node.text, node.firstRow + 1, []⟩, fun _ => rfl, rfl, fun _ => rfl⟩

theorem Builds.inRole (builds : Builds plain own program sketch) (role : Role) :
    Builds plain (some role) (program.inRole role) sketch := by
  obtain ⟨made, makes, -, filled⟩ := builds
  exact ⟨_, makes.inRole role, rfl, filled⟩

/-- A node is drawn in the role that is chosen when it is made. -/
theorem Builds.placed (builds : Builds plain own program sketch)
    (choose : Option Role → Option Role) :
    Draws plain (do let made ← program; return [{ made with role := choose made.role }])
      [sketch (choose own)] := by
  obtain ⟨⟨id, kind, own, text, line, children⟩, makes, rfl, filled⟩ := builds
  intro next
  rw [Sketch.fill.fillAll, filled]
  simp only [StateT.run_bind, makes next, pure_bind, StateT.run_pure]
  rfl

theorem Builds.single (builds : Builds plain own program sketch) :
    Draws plain program.single [sketch own] := by
  obtain ⟨⟨id, kind, own, text, line, children⟩, makes, rfl, filled⟩ := builds
  intro next
  rw [Sketch.fill.fillAll, filled]
  simp only [Counted.single, StateT.run_bind, makes next, pure_bind, StateT.run_pure]
  rfl

variable {lower : Lowerer}

/-- The lowering of parts makes what the plain lowering of parts gives. -/
def Follows (lower : Lowerer) (plain : Option Role → Node → List Syntax.Node) : Prop :=
  ∀ role node, MakesAll (lower role node) (plain role node)

variable (follows : Follows lower plain)

include follows

theorem Follows.pending (role : Option Role) (node : Node) :
    Draws plain (lower role node) [.pending role node] := by
  rw [Draws, Sketch.fill.fillAll, Sketch.fill, Sketch.fill.fillAll, List.append_nil]
  exact follows role node

theorem lowerEach_draws (role : Option Role) (nodes : List Node) :
    Draws plain (lowerEach lower role nodes) (nodes.map (.pending role)) := by
  rw [List.map_eq_flatMap]
  exact .flatMap fun node _ => follows.pending role node

theorem lowerAny_draws (role : Role) (node : Option Node) :
    Draws plain (lowerAny lower role node) (node.toList.map (.pending (some role))) := by
  cases node with
  | none => exact .nil
  | some node => exact follows.pending (some role) node

theorem lowerField_draws (node : Node) (field : String) (role : Role) :
    Draws plain (lowerField lower node field role) (node.pendingField field role) :=
  lowerAny_draws follows role (node.childOf field)

theorem lowerCondition_draws (node : Node) :
    Draws plain (lowerCondition lower node) node.pendingCondition :=
  lowerAny_draws follows .condition node.condition?

theorem lowerGeneric_builds (node : Node) (kind : Kind) :
    Builds plain none (lowerGeneric lower node kind) fun role =>
      .of node kind role (node.pendingParts none) :=
  node.grow_builds kind (lowerEach_draws follows none node.parts)

theorem lowerBinary_builds (form : ChainForm) (node : Node) :
    Builds plain none (lowerBinary lower form node) (node.binary form) :=
  node.grow_builds _ (lowerEach_draws follows none (node.operands form))

theorem lowerTypeList_draws (role : Role) (node : Node) :
    Draws plain (lowerTypeList lower role node) (node.typeEntries role) :=
  lowerEach_draws follows (some role) (node.spreadParts isTypeList)

theorem lowerBody_draws (node : Node) : Draws plain (lowerBody lower node) node.bodyEntries :=
  lowerEach_draws follows none (node.spreadParts isSecondHalf)

theorem lowerAnonymous_builds (node : Node) :
    Builds plain none (lowerAnonymous lower node) node.anonymousClass :=
  node.grow_builds _ (lowerBody_draws follows node)

theorem lowerParameter_builds (node : Node) :
    Builds plain (some .parameter) (lowerParameter lower node) node.parameter := by
  unfold lowerParameter parameter
  obtain ⟨type, name⟩ := node.parameterTypeAndName
  refine (node.grow_builds _ ?_).inRole .parameter
  cases type with
  | none => exact .nil
  | some type =>
      dsimp only
      split
      · exact lowerEach_draws follows _ type.parts
      · exact follows.pending _ type

omit follows in
theorem lowerNameParameter_draws (node : Node) :
    Draws plain (.single node.lowerNameParameter) [node.nameParameter] :=
  ((node.make_builds _).inRole .parameter).single

theorem lowerParameters_draws (node : Node) :
    Draws plain (lowerParameters lower node) node.parameterList := by
  refine .flatMap fun part _ => ?_
  split
  · exact (lowerParameter_builds follows part).single
  · split
    · exact lowerNameParameter_draws part
    · exact .nil

theorem lowerTypeDecl_builds (node : Node) :
    Builds plain none (lowerTypeDecl lower node) node.typeDecl := by
  refine node.grow_builds _ (.flatMap fun part _ => ?_)
  rw [lowerTypeDeclPart, typeDeclPart]
  split
  · exact lowerTypeList_draws follows _ part
  · split
    · exact lowerTypeList_draws follows _ part
    · split
      · rw [List.map_eq_flatMap]
        exact .flatMap fun component _ =>
          ((lowerParameter_builds follows component).inRole .member).single
      · split
        · exact lowerBody_draws follows part
        · exact .nil

theorem lowerMethod_builds (node : Node) (name : String) :
    Builds plain none (lowerMethod lower node name) (node.methodDecl name) := by
  refine node.grow_builds _ (.flatMap fun part _ => ?_)
  rw [lowerMethodPart, methodPart]
  split
  · exact follows.pending _ part
  · split
    · exact lowerParameters_draws follows part
    · split
      · exact follows.pending _ part
      · exact .nil

theorem lowerDeclarators_draws (node : Node) (role : Option Role) :
    Draws plain (lowerDeclarators lower node role) (node.declarators role) := by
  rw [declarators, List.map_eq_flatMap]
  refine .flatMap fun declarator _ => ?_
  have typeAndValue := (lowerField_draws follows node "type" .type).append
    (lowerField_draws follows declarator "value" .initialValue)
  exact (declarator.grow_builds _ typeAndValue).placed fun _ => role

theorem lowerResource_builds (node : Node) :
    Builds plain none (lowerResource lower node) node.resource := by
  unfold lowerResource resource
  cases node.childOf "name" with
  | none => exact lowerGeneric_builds follows node _
  | some name =>
      exact node.grow_builds _ ((lowerField_draws follows node _ _).append
        (lowerField_draws follows node _ _))

theorem lowerLoopVariable_draws (node : Node) :
    Draws plain (lowerLoopVariable lower node) node.loopVariable := by
  rw [lowerLoopVariable, loopVariable]
  cases node.childOf "name" with
  | none => exact .nil
  | some name =>
      cases node.childOf "type" with
      | none => exact fun _ => rfl
      | some type =>
          have draws := follows.pending (some .type) type
          intro next
          simp only [StateT.run_bind, run_make, draws (next + 1), pure_bind, StateT.run_pure]
          rw [Nat.add_assoc]
          rfl

theorem lowerCase_draws (entry : Node × Option Node) (arrow : Bool) (statements : List Node) :
    Draws plain (.single (lowerCase lower entry arrow statements))
      [caseSketch entry arrow statements] :=
  (entry.1.grow_builds _ ((lowerAny_draws follows .label entry.2).append
    (lowerEach_draws follows none statements))).single

theorem lowerCases_draws (arrow : Bool) (statements : List Node)
    (entries : List (Node × Option Node)) :
    Draws plain (lowerCases lower arrow statements entries)
      (caseSketches arrow statements entries) := by
  induction entries with
  | nil => exact .nil
  | cons entry rest ih =>
      cases rest with
      | nil => exact lowerCase_draws follows entry arrow statements
      | cons next rest => exact (lowerCase_draws follows entry false []).append ih

theorem lowerSwitchParts_draws (labels statements parts : List Node) :
    Draws plain (lowerSwitchParts lower labels statements parts)
      (switchEntries labels statements parts) := by
  have cases (arrow : Bool) (labels statements : List Node) :=
    lowerCases_draws follows arrow statements (labelEntries labels)
  induction parts generalizing labels statements with
  | nil => exact cases false labels statements
  | cons part rest ih =>
      rw [lowerSwitchParts, switchEntries]
      split
      · exact (cases _ _ _).append (ih labels statements)
      · split
        · split
          · exact ih _ []
          · exact (cases false labels statements).append (ih [part] [])
        · split
          · exact (follows.pending none part).append (ih labels statements)
          · exact ih labels _

theorem lowerSwitch_builds (node : Node) :
    Builds plain none (lowerSwitch lower node) node.switchSketch := by
  refine node.grow_builds _ ((lowerCondition_draws follows node).append ?_)
  cases node.childOf "body" with
  | none => exact .nil
  | some block => exact lowerSwitchParts_draws follows [] [] block.parts

theorem lowerCreationPart_draws (part : Node) :
    Draws plain (lowerCreationPart lower part) part.creationPart := by
  rw [lowerCreationPart, creationPart]
  split
  · exact follows.pending _ part
  · split
    · exact lowerEach_draws follows _ part.parts
    · split
      · exact .nil
      · split
        · exact (lowerAnonymous_builds follows part).single
        · exact follows.pending _ part

theorem lowerArguments_draws (node : Node) :
    Draws plain (lowerArguments lower node) node.callArguments := by
  rw [lowerArguments, callArguments]
  cases node.childOf "arguments" with
  | none => exact .nil
  | some list =>
      rw [Option.toList_some, List.flatMap_singleton]
      exact lowerEach_draws follows _ list.parts

theorem lowerInvocation_builds (node : Node) :
    Builds plain none (lowerInvocation lower node) node.invocation :=
  node.grow_builds _ (((lowerField_draws follows node _ _).append
    (lowerField_draws follows node _ _)).append (lowerArguments_draws follows node))

theorem lowerConstructorCall_builds (node : Node) :
    Builds plain none (lowerConstructorCall lower node) node.constructorCall :=
  node.grow_builds _ ((lowerField_draws follows node _ _).append
    (lowerArguments_draws follows node))

theorem lowerMemberSelect_builds (node : Node) :
    Builds plain none (lowerMemberSelect lower node) node.memberSelect :=
  node.grow_builds _ (lowerAny_draws follows .object node.qualifier?)

theorem lowerLambda_builds (node : Node) :
    Builds plain none (lowerLambda lower node) node.lambda := by
  refine node.grow_builds _ (.append ?_ (lowerField_draws follows node _ _))
  cases node.childOf "parameters" with
  | none => exact .nil
  | some list =>
      dsimp only
      split
      · exact lowerNameParameter_draws list
      · exact lowerParameters_draws follows list

/-- A construct makes what its sketch describes. -/
theorem lowerWith_draws (form : ChainForm) (role : Option Role) (node : Node) :
    Draws plain (lowerWith lower form role node) (node.sketch form role) := by
  have field (field : String) (role : Role) := lowerField_draws follows node field role
  have condition := lowerCondition_draws follows node
  have asked {program : Counted Syntax.Node} {sketch : Option Role → Sketch}
      (builds : Builds plain none program sketch) :=
    Option.or_none (o := role) ▸ builds.placed role.or
  rw [lowerWith, sketch]
  by_cases skipped : node.extra ∨ node.kind ∈ skippedRules
  · rw [if_pos skipped, if_pos skipped]
    exact .nil
  · rw [if_neg skipped, if_neg skipped]
    split
    · next named =>
        rcases named with named | named
        · simp only [named]
          exact lowerDeclarators_draws follows node _
        · simp only [named]
          exact lowerDeclarators_draws follows node _
    · next noField =>
      obtain ⟨noField, noConstant⟩ := not_or.mp noField
      split
      · next named =>
          simp only [named]
          exact lowerDeclarators_draws follows node role
      · next noLocal =>
        generalize made : lowerConstruct lower form node = program
        unfold lowerConstruct at made
        -- the cases are the rules in the order of the match, the last one any other rule
        split at made
        case h_41 =>
          subst made
          split
          case h_44 => exact asked (lowerGeneric_builds follows node _)
          all_goals contradiction
        all_goals
          rename_i named
          subst made
          simp only [named]
        case h_1 | h_2 | h_26 | h_31 | h_32 | h_39 | h_40 => exact asked (node.make_builds _)
        case h_3 | h_4 | h_5 | h_6 | h_7 => exact asked (lowerTypeDecl_builds follows node)
        case h_8 => exact asked (lowerAnonymous_builds follows node)
        case h_9 | h_10 | h_11 | h_12 => exact asked (lowerMethod_builds follows node _)
        case h_13 | h_14 | h_15 => exact (lowerParameter_builds follows node).placed role.or
        case h_16 => exact asked (lowerResource_builds follows node)
        case h_17 | h_18 | h_27 | h_33 => exact asked (lowerGeneric_builds follows node _)
        case h_19 =>
          exact asked (node.grow_builds _ ((condition.append (field _ _)).append (field _ _)))
        case h_20 =>
          refine asked (node.grow_builds _ ?_)
          rw [List.map_eq_flatMap]
          exact .flatMap fun part _ => follows.pending part.forRole part
        case h_21 =>
          exact asked (node.grow_builds _
            (((lowerLoopVariable_draws follows node).append (field _ _)).append (field _ _)))
        case h_22 => exact asked (node.grow_builds _ (condition.append (field _ _)))
        case h_23 => exact asked (node.grow_builds _ ((field _ _).append condition))
        case h_24 | h_25 => exact asked (lowerSwitch_builds follows node)
        case h_28 =>
          exact asked (node.grow_builds _
            (.flatMap fun part _ => lowerCreationPart_draws follows part))
        case h_29 => exact asked (lowerInvocation_builds follows node)
        case h_30 => exact asked (lowerConstructorCall_builds follows node)
        case h_34 | h_35 | h_36 => exact asked (lowerMemberSelect_builds follows node)
        case h_37 => exact asked (lowerLambda_builds follows node)
        case h_38 => exact asked (lowerBinary_builds follows form node)

end Constructs

/-- The counting lowering follows the plain one, however deep. -/
theorem lowerInto_follows (form : ChainForm) (depth : Nat) :
    Follows (lowerInto form depth) (lowerUpTo form depth) := by
  induction depth with
  | zero => exact fun _ _ => .nil
  | succ depth ih => exact fun role node => lowerWith_draws ih form role node

/-- The tree of a source file is numbered in pre-order, from zero on. -/
theorem lowerUnit_eq (form : ChainForm) (root : Node) :
    root.lowerUnit form = (root.lowerRoot form).number 0 := by
  have parts : MakesAll (root.parts.flatMapM fun part => lowerInto form part.size none part)
      (root.parts.flatMap (lower form none)) :=
    .flatMap fun part _ => lowerInto_follows form part.size none part
  rw [lowerUnit, lowerProgram, root.grow_makes .compilationUnit parts 0]
  rfl

/-- The ids of a lowered unit in pre-order are the numbers from zero to its size. -/
theorem lowerUnit_ids (form : ChainForm) (root : Node) :
    (root.lowerUnit form).preorder.map (·.id) = List.range (root.lowerUnit form).size := by
  have ids := Syntax.Node.map_id_preorder_number (root.lowerRoot form) 0
  have size := congrArg List.length ids
  rw [List.length_map, Syntax.Node.length_preorder, List.length_range'] at size
  rw [lowerUnit_eq, ids, size, List.range_eq_range']

/-- No two nodes of a lowered unit have the same id. -/
theorem lowerUnit_hasDistinctIds (form : ChainForm) (root : Node) :
    (root.lowerUnit form).HasDistinctIds := by
  rw [lowerUnit_eq]
  exact Syntax.Node.number_hasDistinctIds _ 0

end Node

end Grammar

end JavaStructure
