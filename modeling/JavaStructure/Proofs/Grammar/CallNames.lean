/-
# What stands below leaves and in the names of calls

Some nodes are taken as a whole when a model is built, and of the name of a call only its text
is looked at. In a lowered tree nothing is missed by that: the former have nothing below them,
and the latter is a single word. The first holds of every lowered tree. The second is a matter
of the grammar, in which an identifier names a method, and `this` or `super` a constructor; it
is assumed of the parser's tree and carried over to the lowered one.
-/

import JavaStructure.Proofs.Building.Visit
import JavaStructure.Proofs.Grammar.Lowering

namespace JavaStructure

namespace Syntax

/-- Whether a node is a single word that stands for no type. -/
def Kind.isWord : Kind → Bool
  | .identifier _ false | .thisRef | .superRef => true
  | _ => false

namespace Node

/-- A node that is visited as a whole has no children, and the name of a call is a word. -/
structure IsTidy (node : Node) : Prop where
  leaf : node.kind.isDescended = false → node.children = []
  name : ∀ child ∈ node.children, node.isCallName child = true →
    child.kind.isWord = true ∧ child.children = []

/-- Every node of a tree is tidy. -/
def AllTidy (root : Node) : Prop :=
  ∀ node ∈ root.preorder, node.IsTidy

variable {root node : Node}

/-- A tree is tidy if its root and the trees below it are. -/
theorem allTidy_of_children (own : node.IsTidy)
    (children : ∀ child ∈ node.children, child.AllTidy) : node.AllTidy := by
  intro inner below
  rw [preorder_eq] at below
  rcases List.mem_cons.mp below with rfl | deeper
  · exact own
  · obtain ⟨child, member, within⟩ := mem_preorderAll.mp deeper
    exact children child member inner within

/-- A node without children is tidy. -/
theorem isTidy_of_bare (bare : node.children = []) : node.IsTidy :=
  ⟨fun _ => bare, by simp [bare]⟩

/-- In a tidy tree nothing but a word is, or is part of, the name of a call. -/
theorem AllTidy.not_namesCall (tidy : root.AllTidy) (noWord : node.kind.isWord = false) :
    ¬ root.NamesCall node := by
  rintro ⟨call, below, name, member, named, within⟩
  obtain ⟨word, bare⟩ := (tidy call below).name name member named
  rw [preorder_eq, bare] at within
  obtain rfl : node = name := by simpa [preorder.preorderAll] using within
  rw [noWord] at word
  cases word

/-- Numbering keeps nodes tidy. -/
theorem number_isTidy (tidy : node.IsTidy) (next : Nat) : (node.number next).IsTidy where
  leaf leaf := by
    rw [number_kind] at leaf
    rw [number_children, tidy.leaf leaf]
    rfl
  name child member named := by
    rw [number_children] at member
    obtain ⟨before, after, split⟩ := List.append_of_mem member
    obtain ⟨front, original, back, start, children, -, rfl⟩ := split_numberAll split
    rw [isCallName, number_kind, number_role] at named
    obtain ⟨word, bare⟩ := tidy.name original (by simp [children]) named
    rw [number_kind, number_children, bare]
    exact ⟨word, rfl⟩

end Node

end Syntax

namespace Grammar

open Syntax (Kind Role)

variable {node : Node} {sketch : Sketch} {lower : Option Role → Node → List Syntax.Node}

namespace Node

/-- Whether a grammar node is a single word that stands for no type. -/
def IsWord (node : Node) : Prop :=
  node.kind = "identifier" ∨ node.kind = "this" ∨ node.kind = "super"

/-- If a node is a call, then a word names it. -/
@[mk_iff]
structure NamesByWord (node : Node) : Prop where
  method : node.kind = "method_invocation" →
    ∀ name, node.childOf "name" = some name → name.IsWord
  constructor : node.kind = "explicit_constructor_invocation" →
    ∀ name, node.childOf "constructor" = some name → name.IsWord

/-- Every call in a tree is named by a word, as the grammar has it. -/
def NamesCalls (root : Node) : Prop :=
  ∀ call : Node, call.Below root → call.NamesByWord

/-- The calls in a tree are its children and the calls in those. -/
theorem namesCalls_mk {kind : String} {field : Option String} {named extra : Bool}
    {text : String} {firstRow lastRow : Nat} {children : List Node} :
    NamesCalls ⟨kind, field, named, extra, text, firstRow, lastRow, children⟩ ↔
      ∀ child ∈ children, child.NamesByWord ∧ child.NamesCalls := by
  constructor
  · exact fun named child member =>
      ⟨named child (.child member), fun call below => named call (.deeper member below)⟩
  · intro each call below
    cases below with
    | child member => exact (each call member).1
    | deeper member inside => exact (each _ member).2 call inside

end Node

namespace Sketch

/-- The sketches of tidy nodes. -/
inductive Tidy : Sketch → Prop
  | pending (role : Option Role) (node : Node) : Tidy (.pending role node)
  | leaf (kind : Kind) (role : Option Role) (text : String) (line : Nat) :
      Tidy (.built kind role text line [])
  | call {kind : Kind} (isCall : kind.isCall = true) (role : Option Role) (text : String)
      (line : Nat) {parts : List Sketch}
      (each : ∀ part ∈ parts, ∃ role source, part = .pending (some role) source ∧
        (role = .name → source.IsWord)) : Tidy (.built kind role text line parts)
  | other {kind : Kind} (descended : kind.isDescended = true) (noCall : kind.isCall = false)
      (role : Option Role) (text : String) (line : Nat) {parts : List Sketch}
      (each : ∀ part ∈ parts, Tidy part) : Tidy (.built kind role text line parts)

/-- The sketch of a node whose children are visited, in the place of a grammar node. -/
theorem Tidy.of (source : Node) {kind : Kind} (descended : kind.isDescended = true)
    (noCall : kind.isCall = false) (role : Option Role) {parts : List Sketch}
    (each : ∀ part ∈ parts, Tidy part) : Tidy (.of source kind role parts) :=
  .other descended noCall role _ _ each

/-- The sketch of a call, in the place of a grammar node. -/
theorem Tidy.callOf (source : Node) (select : String) (role : Option Role) {parts : List Sketch}
    (each : ∀ part ∈ parts, ∃ role leaf, part = .pending (some role) leaf ∧
      (role = .name → leaf.IsWord)) : Tidy (.of source (.invocation select) role parts) :=
  .call rfl role _ _ each

theorem tidy_of_pending {sources : List Node} (role : Node → Option Role) :
    ∀ part ∈ sources.map fun source => Sketch.pending (role source) source, Tidy part := by
  intro part member
  obtain ⟨source, -, rfl⟩ := List.mem_map.mp member
  exact .pending _ _

end Sketch

namespace Node

open Sketch (Tidy tidy_of_pending)

theorem pendingParts_tidy (node : Node) (role : Option Role) :
    ∀ part ∈ node.pendingParts role, Tidy part :=
  tidy_of_pending fun _ => role

theorem pendingField_tidy (node : Node) (field : String) (role : Role) :
    ∀ part ∈ node.pendingField field role, Tidy part :=
  tidy_of_pending fun _ => some role

theorem pendingCondition_tidy (node : Node) : ∀ part ∈ node.pendingCondition, Tidy part :=
  tidy_of_pending fun _ => some .condition

theorem typeEntries_tidy (role : Role) (node : Node) :
    ∀ part ∈ node.typeEntries role, Tidy part :=
  tidy_of_pending fun _ => some role

theorem bodyEntries_tidy (node : Node) : ∀ part ∈ node.bodyEntries, Tidy part :=
  tidy_of_pending fun _ => none

theorem anonymousClass_tidy (node : Node) (role : Option Role) : Tidy (node.anonymousClass role) :=
  .of node rfl rfl role (bodyEntries_tidy node)

theorem parameter_tidy (node : Node) (role : Option Role) : Tidy (node.parameter role) := by
  refine .of node rfl rfl role fun part member => ?_
  split at member
  · cases member
  · next type found =>
      split at member
      · exact pendingParts_tidy type _ part member
      · obtain rfl := List.mem_singleton.mp member
        exact .pending _ _

theorem nameParameter_tidy (node : Node) : Tidy node.nameParameter :=
  .leaf _ _ _ _

theorem parameterList_tidy (node : Node) : ∀ part ∈ node.parameterList, Tidy part := by
  intro part member
  obtain ⟨inner, -, within⟩ := List.mem_flatMap.mp member
  split at within
  · obtain rfl := List.mem_singleton.mp within
    exact parameter_tidy inner _
  · split at within
    · obtain rfl := List.mem_singleton.mp within
      exact nameParameter_tidy inner
    · cases within

theorem typeDecl_tidy (node : Node) (role : Option Role) : Tidy (node.typeDecl role) := by
  refine .of node rfl rfl role fun part member => ?_
  obtain ⟨inner, -, within⟩ := List.mem_flatMap.mp member
  simp only [typeDeclPart] at within
  split at within
  · exact typeEntries_tidy _ inner part within
  · split at within
    · exact typeEntries_tidy _ inner part within
    · split at within
      · obtain ⟨component, -, rfl⟩ := List.mem_map.mp within
        exact parameter_tidy component _
      · split at within
        · exact bodyEntries_tidy inner part within
        · cases within

theorem methodDecl_tidy (node : Node) (name : String) (role : Option Role) :
    Tidy (node.methodDecl name role) := by
  refine .of node rfl rfl role fun part member => ?_
  obtain ⟨inner, -, within⟩ := List.mem_flatMap.mp member
  simp only [methodPart] at within
  split at within
  · obtain rfl := List.mem_singleton.mp within
    exact .pending _ _
  · split at within
    · exact parameterList_tidy inner part within
    · split at within
      · obtain rfl := List.mem_singleton.mp within
        exact .pending _ _
      · cases within

theorem declarators_tidy (node : Node) (role : Option Role) :
    ∀ part ∈ node.declarators role, Tidy part := by
  intro part member
  obtain ⟨declarator, -, rfl⟩ := List.mem_map.mp member
  exact .of declarator rfl rfl role (List.forall_mem_append.mpr
    ⟨pendingField_tidy node "type" .type, pendingField_tidy declarator "value" .initialValue⟩)

theorem resource_tidy (node : Node) (role : Option Role) : Tidy (node.resource role) := by
  rw [resource]
  split
  · exact .of node rfl rfl role (pendingParts_tidy node none)
  · exact .of node rfl rfl role (List.forall_mem_append.mpr
      ⟨pendingField_tidy node "type" .type, pendingField_tidy node "value" .initialValue⟩)

theorem loopVariable_tidy (node : Node) : ∀ part ∈ node.loopVariable, Tidy part := by
  rw [loopVariable]
  split
  · simp
  · exact List.forall_mem_singleton.mpr (.leaf _ _ _ _)
  · exact List.forall_mem_singleton.mpr
      (.other rfl rfl _ _ _ (List.forall_mem_singleton.mpr (.pending _ _)))

theorem caseSketch_tidy (entry : Node × Option Node) (arrow : Bool) (statements : List Node) :
    Tidy (caseSketch entry arrow statements) :=
  .of entry.1 rfl rfl none (List.forall_mem_append.mpr
    ⟨tidy_of_pending fun _ => some .label, tidy_of_pending fun _ => none⟩)

theorem caseSketches_tidy (arrow : Bool) (statements : List Node)
    (entries : List (Node × Option Node)) :
    ∀ part ∈ caseSketches arrow statements entries, Tidy part := by
  induction entries with
  | nil => simp [caseSketches]
  | cons entry rest ih =>
      cases rest with
      | nil => simpa [caseSketches] using caseSketch_tidy entry arrow statements
      | cons next rest =>
          rw [caseSketches]
          · exact List.forall_mem_cons.mpr ⟨caseSketch_tidy entry false [], ih⟩
          · simp

theorem switchEntries_tidy (labels statements parts : List Node) :
    ∀ part ∈ switchEntries labels statements parts, Tidy part := by
  induction parts generalizing labels statements with
  | nil => exact caseSketches_tidy false statements _
  | cons part rest ih =>
      rw [switchEntries]
      split
      · exact List.forall_mem_append.mpr ⟨caseSketches_tidy _ _ _, ih labels statements⟩
      · split
        · split
          · exact ih _ _
          · exact List.forall_mem_append.mpr ⟨caseSketches_tidy _ _ _, ih _ _⟩
        · split
          · exact List.forall_mem_cons.mpr ⟨.pending _ _, ih labels statements⟩
          · exact ih _ _

theorem switchSketch_tidy (node : Node) (role : Option Role) : Tidy (node.switchSketch role) := by
  refine .of node rfl rfl role (List.forall_mem_append.mpr ⟨pendingCondition_tidy node, ?_⟩)
  split
  · simp
  · exact switchEntries_tidy [] [] _

theorem creationPart_tidy (part : Node) : ∀ sketch ∈ part.creationPart, Tidy sketch := by
  intro sketch member
  simp only [creationPart] at member
  split at member
  · obtain rfl := List.mem_singleton.mp member
    exact .pending _ _
  · split at member
    · exact pendingParts_tidy part _ sketch member
    · split at member
      · cases member
      · split at member
        · obtain rfl := List.mem_singleton.mp member
          exact anonymousClass_tidy part none
        · obtain rfl := List.mem_singleton.mp member
          exact .pending _ _

/-- The arguments of a call are pending in a role of their own. -/
theorem mem_callArguments {part : Sketch} (member : part ∈ node.callArguments) :
    ∃ leaf, part = .pending (some .argument) leaf := by
  obtain ⟨list, -, within⟩ := List.mem_flatMap.mp member
  obtain ⟨leaf, -, rfl⟩ := List.mem_map.mp within
  exact ⟨leaf, rfl⟩

/-- What names a call and what its arguments are is pending, the name a word. -/
theorem nameAndArguments_word (node : Node) {field : String}
    (word : ∀ name, node.childOf field = some name → name.IsWord) :
    ∀ part ∈ node.pendingField field .name ++ node.callArguments,
      ∃ role leaf, part = .pending (some role) leaf ∧ (role = .name → leaf.IsWord) := by
  intro part member
  rcases List.mem_append.mp member with name | argument
  · obtain ⟨leaf, found, rfl⟩ := List.mem_map.mp name
    exact ⟨_, leaf, rfl, fun _ => word leaf (Option.mem_toList.mp found)⟩
  · obtain ⟨leaf, rfl⟩ := mem_callArguments argument
    exact ⟨_, leaf, rfl, by simp⟩

theorem invocation_tidy (role : Option Role)
    (word : ∀ name, node.childOf "name" = some name → name.IsWord) :
    Tidy (node.invocation role) := by
  refine .callOf node _ role fun part member => ?_
  rw [List.append_assoc] at member
  rcases List.mem_append.mp member with receiver | later
  · obtain ⟨leaf, -, rfl⟩ := List.mem_map.mp receiver
    exact ⟨_, leaf, rfl, by simp⟩
  · exact nameAndArguments_word node word part later

theorem constructorCall_tidy (role : Option Role)
    (word : ∀ name, node.childOf "constructor" = some name → name.IsWord) :
    Tidy (node.constructorCall role) :=
  .callOf node _ role (nameAndArguments_word node word)

theorem lambda_tidy (node : Node) (role : Option Role) : Tidy (node.lambda role) := by
  refine .of node rfl rfl role
    (List.forall_mem_append.mpr ⟨?_, pendingField_tidy node "body" .body⟩)
  split
  · simp
  · split
    · exact List.forall_mem_singleton.mpr (nameParameter_tidy _)
    · exact parameterList_tidy _

/-- What a grammar node contributes is tidy, if a word names the call that it may be. -/
theorem sketch_tidy (form : ChainForm) (role : Option Role) (named : node.NamesByWord) :
    ∀ part ∈ node.sketch form role, Tidy part := by
  have single {sketch : Sketch} (tidy : Tidy sketch) : ∀ part ∈ [sketch], Tidy part := by
    simpa using tidy
  have leaf (kind : Kind) : ∀ part ∈ [Sketch.of node kind role []], Tidy part :=
    single (.leaf ..)
  have built (kind : Kind) {parts : List Sketch} (descended : kind.isDescended = true)
      (noCall : kind.isCall = false) (tidy : ∀ part ∈ parts, Tidy part) :
      ∀ part ∈ [Sketch.of node kind role parts], Tidy part :=
    single (.of node descended noCall role tidy)
  have field (name : String) (role : Role) := pendingField_tidy node name role
  have condition := pendingCondition_tidy node
  unfold sketch
  split
  · simp
  · -- the cases are the rules in the order of the match
    split
    case h_1 | h_2 | h_29 | h_34 | h_35 | h_42 | h_43 => exact leaf _
    case h_3 | h_4 | h_5 | h_6 | h_7 => exact single (typeDecl_tidy node role)
    case h_8 => exact single (anonymousClass_tidy node role)
    case h_9 | h_10 | h_11 | h_12 => exact single (methodDecl_tidy node _ role)
    case h_13 | h_14 | h_15 => exact declarators_tidy node _
    case h_16 | h_17 | h_18 => exact single (parameter_tidy node _)
    case h_19 => exact single (resource_tidy node role)
    case h_20 | h_21 | h_30 | h_36 | h_44 => exact built _ rfl rfl (pendingParts_tidy node none)
    case h_22 =>
      refine built _ rfl rfl ?_
      rw [List.forall_mem_append, List.forall_mem_append]
      exact ⟨⟨condition, field "consequence" .body⟩, field "alternative" .alternative⟩
    case h_23 => exact built _ rfl rfl (tidy_of_pending forRole)
    case h_24 =>
      refine built _ rfl rfl ?_
      rw [List.forall_mem_append, List.forall_mem_append]
      exact ⟨⟨loopVariable_tidy node, field "value" .expression⟩, field "body" .body⟩
    case h_25 => exact built _ rfl rfl (List.forall_mem_append.mpr ⟨condition, field "body" .body⟩)
    case h_26 => exact built _ rfl rfl (List.forall_mem_append.mpr ⟨field "body" .body, condition⟩)
    case h_27 | h_28 => exact single (switchSketch_tidy node role)
    case h_31 =>
      refine built _ rfl rfl fun part member => ?_
      obtain ⟨inner, -, within⟩ := List.mem_flatMap.mp member
      exact creationPart_tidy inner part within
    case h_32 kind => exact single (invocation_tidy role (named.method kind))
    case h_33 kind => exact single (constructorCall_tidy role (named.constructor kind))
    case h_37 | h_38 | h_39 => exact built _ rfl rfl (tidy_of_pending fun _ => some .object)
    case h_40 => exact single (lambda_tidy node role)
    case h_41 => exact built _ rfl rfl (tidy_of_pending fun _ => none)

/-- What a grammar node contributes has the role that is asked for, but for fields, which are
members always. -/
theorem sketch_role (form : ChainForm) (role : Role) (node : Node) :
    ∀ part ∈ node.sketch form (some role), ∃ kind own text line parts,
      part = .built kind own text line parts ∧ (own = some role ∨ own = some .member) := by
  have single (source : Node) (kind : Kind) (parts : List Sketch) :
      ∀ part ∈ [Sketch.of source kind (some role) parts], ∃ kind own text line parts,
        part = .built kind own text line parts ∧ (own = some role ∨ own = some .member) :=
    List.forall_mem_singleton.mpr ⟨_, _, _, _, _, rfl, .inl rfl⟩
  have declared {own : Option Role} (known : own = some role ∨ own = some .member) :
      ∀ part ∈ node.declarators own, ∃ kind own text line parts,
        part = .built kind own text line parts ∧ (own = some role ∨ own = some .member) := by
    intro part member
    obtain ⟨declarator, -, rfl⟩ := List.mem_map.mp member
    exact ⟨_, _, _, _, _, rfl, known⟩
  unfold sketch
  split
  · simp
  · split
    case h_13 | h_14 => exact declared (.inr rfl)
    case h_15 => exact declared (.inl rfl)
    case h_19 =>
      rw [resource]
      split <;> exact single node _ _
    all_goals exact single node _ _

/-- A word gives a word. -/
theorem sketch_of_isWord (form : ChainForm) (role : Option Role) (word : node.IsWord) :
    ∀ part ∈ node.sketch form role,
      ∃ kind, part = .of node kind role [] ∧ kind.isWord = true := by
  unfold sketch
  split
  · simp
  · rcases word with kind | kind | kind <;>
      exact kind ▸ List.forall_mem_singleton.mpr ⟨_, rfl, rfl⟩

end Node

/-- What the leaves inside a node are replaced by: tidy trees in the role that is asked for, but
for fields, and words where words are. -/
structure FillsTidily (node : Node) (lower : Option Role → Node → List Syntax.Node) : Prop where
  tidy : ∀ role source, source.Below node → ∀ tree ∈ lower role source, tree.AllTidy
  role : ∀ role source, ∀ tree ∈ lower (some role) source,
    tree.role = some role ∨ tree.role = some .member
  word : ∀ role source, source.IsWord → ∀ tree ∈ lower role source,
    tree.kind.isWord = true ∧ tree.children = []

/-- A node whose children are visited is tidy if they are and, where it is a call, a word
fills its name. -/
theorem Sketch.allTidy_of_built {kind : Kind} {role : Option Role} {text : String} {line : Nat}
    {parts : List Sketch} (descended : kind.isDescended = true)
    (each : ∀ part ∈ parts, ∀ tree ∈ part.fill lower, tree.AllTidy)
    (names : kind.isCall = true → ∀ part ∈ parts, ∀ tree ∈ part.fill lower,
      tree.role = some .name → tree.kind.isWord = true ∧ tree.children = []) :
    ∀ tree ∈ (Sketch.built kind role text line parts).fill lower, tree.AllTidy := by
  intro tree member
  rw [Sketch.fill] at member
  obtain rfl := List.mem_singleton.mp member
  refine Syntax.Node.allTidy_of_children ⟨fun leaf => ?_, fun child inside named => ?_⟩
    fun child inside => ?_
  · rw [descended] at leaf
    cases leaf
  · obtain ⟨part, among, filled⟩ := mem_fillAll.mp inside
    obtain ⟨isCall, isName⟩ : kind.isCall = true ∧ child.role = some .name := by
      simpa [Syntax.Node.isCallName] using named
    exact names isCall part among child filled isName
  · obtain ⟨part, among, filled⟩ := mem_fillAll.mp inside
    exact each part among child filled

/-- Filling the sketches of tidy nodes gives tidy trees. -/
theorem Sketch.Tidy.fill (fills : FillsTidily node lower) (tidy : sketch.Tidy)
    (pends : PendsBelow node sketch) : ∀ tree ∈ sketch.fill lower, tree.AllTidy := by
  induction tidy with
  | pending role source =>
      cases pends with
      | pending _ below => exact fills.tidy role source below
  | leaf kind role text line =>
      intro tree member
      obtain rfl := List.mem_singleton.mp member
      exact Syntax.Node.allTidy_of_children (Syntax.Node.isTidy_of_bare rfl)
        (by simp [fill.fillAll])
  | @call kind isCall role text line parts each =>
      have descended : kind.isDescended = true := by
        cases kind with
        | invocation select => rfl
        | _ => cases isCall
      cases pends with
      | built _ _ _ _ pends =>
          refine allTidy_of_built descended (fun part among => ?_)
            fun _ part among child filled isName => ?_
          · obtain ⟨role, source, rfl, -⟩ := each part among
            cases pends _ among with
            | pending _ below => exact fills.tidy _ source below
          · obtain ⟨role, source, rfl, word⟩ := each part among
            refine fills.word _ source (word ?_) child filled
            rcases fills.role role source child filled with own | isMember
            · exact Option.some.inj (own.symm.trans isName)
            · rw [isName] at isMember
              cases isMember
  | @other kind descended noCall role text line parts each ih =>
      cases pends with
      | built _ _ _ _ pends =>
          refine allTidy_of_built descended (fun part among => ih part among (pends part among))
            fun isCall => ?_
          rw [noCall] at isCall
          cases isCall

/-- A node in a tree whose calls are named by words is lowered to tidy trees. -/
theorem Node.lower_allTidy (form : ChainForm) {root : Node} (named : root.NamesCalls)
    (below : node.Below root) (role : Option Role) :
    ∀ tree ∈ node.lower form role, tree.AllTidy := by
  induction size : node.size using Nat.strongRecOn generalizing node role with
  | ind bound ih =>
      have fills : FillsTidily node (lower form) := by
        refine ⟨fun role source inside => ?_, fun role source tree member => ?_,
          fun role source word tree member => ?_⟩
        · exact ih source.size (size ▸ inside.size_lt) (inside.trans below) role rfl
        · rw [lower_eq] at member
          obtain ⟨part, among, filled⟩ := Sketch.mem_fillAll.mp member
          obtain ⟨kind, own, text, line, parts, rfl, known⟩ :=
            sketch_role form role source part among
          rw [Sketch.fill] at filled
          obtain rfl := List.mem_singleton.mp filled
          exact known
        · rw [lower_eq] at member
          obtain ⟨part, among, filled⟩ := Sketch.mem_fillAll.mp member
          obtain ⟨kind, rfl, isWord⟩ := sketch_of_isWord form role word part among
          rw [Sketch.of, Sketch.fill] at filled
          obtain rfl := List.mem_singleton.mp filled
          exact ⟨isWord, rfl⟩
      intro tree member
      rw [lower_eq] at member
      obtain ⟨part, among, filled⟩ := Sketch.mem_fillAll.mp member
      exact (sketch_tidy form role (named node below) part among).fill fills
        (sketch_pends form role node part among) tree filled

/-- The tree of a unit whose calls are named by words is tidy. -/
theorem Node.lowerUnit_allTidy (form : ChainForm) {root : Node} (named : root.NamesCalls) :
    (root.lowerUnit form).AllTidy := by
  have built : (root.lowerRoot form).AllTidy := by
    refine Syntax.Node.allTidy_of_children ⟨nofun, fun child _ named => ?_⟩ fun child member => ?_
    · cases named
    · obtain ⟨part, inside, lowered⟩ := List.mem_flatMap.mp member
      exact lower_allTidy form named (.part inside) none child lowered
  intro node below
  rw [lowerUnit_eq] at below
  obtain ⟨original, inside, start, rfl⟩ := Syntax.Node.mem_preorder_number below
  exact Syntax.Node.number_isTidy (built original inside) start

end Grammar

end JavaStructure
