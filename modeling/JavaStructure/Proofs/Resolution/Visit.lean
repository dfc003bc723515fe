/-
# What the walk of names keeps

A visit enters a node, visits its children and leaves the node. Three things are said of
it: the place moves on as the tree says, a snapshot that is kept shows the visible names, and
nothing is noted of nodes elsewhere in the tree.
-/

import JavaStructure.Proofs.Resolution.Places

namespace JavaStructure.Resolution

open Syntax (Node Kind Role Step Trail)

namespace Walk

variable {known : Known} {walk visited : Walk} {node parent : Node} {id : Nat} {ids : List Nat}

/-- The walk before the children of a node are visited. -/
def enter (known : Known) (walk : Walk) (node : Node) : Walk :=
  match node.kind with
  | .classDecl name _ =>
      if name.isEmpty then walk else walk.enterClass (known.qualifier.names.inPackage name)
  | .parameterizedType => walk.note node.id (parameterizedSymbol known node.text)
  | .invocation select => walk.note node.id (callSymbol known walk.place node select)
  | .creation => walk.noteConstructed node
  | kind => if opensFrame kind then walk.openFrame else walk

/-- The walk after a node, from the one after its children. -/
def leave (known : Known) (node : Node) (visited : Walk) : Walk :=
  match node.kind with
  | .classDecl name _ => if name.isEmpty then visited else visited.leaveClass
  | .variableDecl name =>
      match declaredKind node.role with
      | some kind => visited.declare known node name kind
      | none => visited
  | kind => if opensFrame kind then visited.closeFrame else visited

/-- The name of the method that a call invokes. -/
def calledMethod (node : Node) : String :=
  match node.kind with
  | .invocation select => methodName node select
  | _ => ""

/-- Visit a child; of the name of a call only its symbol is noted. -/
def visitChild (known : Known) (parent : Node) (walk : Walk) (child : Node) : Walk :=
  if parent.isCallName child then
    walk.note child.id { kind := .method, name := calledMethod parent }
  else visit known walk child

/-- Visit some children of a node. -/
def visitChildren (known : Known) (parent : Node) (walk : Walk) (children : List Node) : Walk :=
  children.foldl (visitChild known parent) walk

@[simp]
theorem visitChildren_nil (known : Known) (parent : Node) (walk : Walk) :
    visitChildren known parent walk [] = walk := rfl

@[simp]
theorem visitChildren_cons (known : Known) (parent : Node) (walk : Walk) (child : Node)
    (rest : List Node) :
    visitChildren known parent walk (child :: rest) =
      visitChildren known parent (visitChild known parent walk child) rest := rfl

theorem visitChildren_append (known : Known) (parent : Node) (walk : Walk)
    (front back : List Node) :
    visitChildren known parent walk (front ++ back) =
      visitChildren known parent (visitChildren known parent walk front) back :=
  List.foldl_append

theorem visitAll_eq (known : Known) (noCall : parent.kind.isCall = false) (walk : Walk)
    (children : List Node) :
    visitAll known walk children = visitChildren known parent walk children := by
  induction children generalizing walk with
  | nil => simp [visitAll]
  | cons child rest ih => simp [visitAll, ih, visitChild, Node.isCallName, noCall]

theorem visitCall_eq (known : Known) (walk : Walk) {select : String}
    (kind : parent.kind = .invocation select) (children : List Node) :
    visitCall known (methodName parent select) walk children =
      visitChildren known parent walk children := by
  induction children generalizing walk with
  | nil => simp [visitCall]
  | cons child rest ih =>
      simp [visitCall, ih, visitChild, Node.isCallName, kind, Kind.isCall, calledMethod]

/-- A visit enters, visits the children and leaves. Identifiers are visited as a whole. -/
theorem visit_eq (known : Known) (walk : Walk) (noIdentifier : node.kind.isIdentifier = false) :
    visit known walk node =
      leave known node (visitChildren known node (enter known walk node) node.children) := by
  cases isCall : node.kind.isCall with
  | true =>
      obtain ⟨id, kind, role, text, line, children⟩ := node
      cases kind with
      | invocation select =>
          rw [visit, visitCall_eq known _ rfl]
          rfl
      | _ => cases isCall
  | false =>
      have all := visitAll_eq known isCall
      obtain ⟨id, kind, role, text, line, children⟩ := node
      cases kind with
      | identifier name typePosition => cases noIdentifier
      | invocation select => cases isCall
      | classDecl name flavor =>
          simp only [visit, enter, leave, all]
          split <;> rfl
      | variableDecl name | parameterizedType | creation =>
          simp only [visit, enter, leave, all]
          rfl
      | _ =>
          simp only [visit, enter, leave, all]
          split <;> rfl

theorem visit_of_identifier (known : Known) (walk : Walk) {name : String} {typePosition : Bool}
    (kind : node.kind = .identifier name typePosition) :
    visit known walk node = walk.resolveName known node.id name typePosition := by
  obtain ⟨id, _, role, text, line, children⟩ := node
  subst kind
  rw [visit]

theorem leave_of_opensFrame (opens : opensFrame node.kind = true) :
    leave known node visited = visited.closeFrame := by
  obtain ⟨id, kind, role, text, line, children⟩ := node
  cases kind with
  | methodDecl _ | block | forLoop | enhancedFor | lambda | switch | other _ =>
      simp only [leave]
      rw [if_pos opens]
  | _ => cases opens

/-- Only a frame, a class and a variable change anything when they are left. -/
theorem leave_of_plain (closed : opensFrame node.kind = false)
    (noClass : ∀ name flavor, node.kind ≠ .classDecl name flavor)
    (noVariable : ∀ name, node.kind ≠ .variableDecl name) :
    leave known node visited = visited := by
  rw [leave]
  cases kind : node.kind with
  | classDecl name flavor => exact absurd kind (noClass name flavor)
  | variableDecl name => exact absurd kind (noVariable name)
  | _ =>
      rw [kind] at closed
      simp only [closed]
      rfl

@[simp]
theorem refresh_place (known : Known) (walk : Walk) :
    (walk.refresh known).1.place = walk.place := by
  rw [refresh]
  split <;> rfl

@[simp]
theorem noteScope_place (known : Known) (walk : Walk) (id : Nat) :
    (walk.noteScope known id).place = walk.place := by
  simp [noteScope]

@[simp]
theorem resolveName_place (known : Known) (walk : Walk) (id : Nat) (name : String)
    (typePosition : Bool) :
    (walk.resolveName known id name typePosition).place = walk.place := by
  rw [resolveName]
  split
  · rfl
  · rw [noteScope_place]
    split <;> rfl

@[simp]
theorem noteConstructed_place (walk : Walk) (node : Node) :
    (walk.noteConstructed node).place = walk.place := by
  rw [noteConstructed]
  split
  · split <;> rfl
  · rfl

theorem enter_place (known : Known) (walk : Walk) (node : Node) :
    (enter known walk node).place = below known walk.place node := by
  rw [enter, below]
  cases node.kind with
  | classDecl name flavor =>
      dsimp only
      split <;> rfl
  | creation => exact noteConstructed_place walk node
  | _ =>
      dsimp only
      first | rfl | (split <;> rfl)

/-- A variable is declared at the place where its declaration ends. -/
theorem leave_place_of_variable (known : Known) (walk : Walk) {name : String}
    (kind : node.kind = .variableDecl name) :
    (leave known node walk).place = walk.place.declare (localsOf known walk.place node) := by
  have named : node.name?.getD "" = name := by simp [Node.name?, kind]
  simp only [leave, kind, localsOf, named]
  cases declaredKind node.role with
  | none => simp
  | some declared =>
      obtain ⟨⟨classes, frames⟩, _, _, _, _⟩ := walk
      cases frames <;> rfl

theorem closeFrame_place {place : Place} {declared : List Local}
    (inside : visited.place = { place with frames := [] :: place.frames }.declare declared) :
    visited.closeFrame.place = place := by
  simp [closeFrame, inside, Place.declare]

theorem leave_place_of_classDecl {place : Place} {name : String} {flavor : Syntax.Flavor}
    (kind : node.kind = .classDecl name flavor)
    (inside : visited.place.classes = (below known place node).classes) :
    (leave known node visited).place = { visited.place with classes := place.classes } := by
  simp only [below, kind] at inside
  simp only [leave, kind]
  by_cases anonymous : name.isEmpty = true
  · rw [if_pos anonymous] at inside ⊢
    rw [← inside]
  · rw [if_neg anonymous] at inside ⊢
    simp [leaveClass, inside]

theorem visitChildren_place (known : Known) (parent : Node) {children : List Node}
    (each : ∀ child ∈ children, ∀ walk,
      (visit known walk child).place = behind known walk.place child) (walk : Walk) :
    (visitChildren known parent walk children).place =
      behindAmong known parent walk.place children := by
  induction children generalizing walk with
  | nil => simp [behindAmong]
  | cons child rest ih =>
      rw [visitChildren_cons, behindAmong,
        ih fun later member => each later (List.mem_cons_of_mem _ member), visitChild]
      split
      · rfl
      · rw [each child List.mem_cons_self]

/-- A visit leads to the place behind the node. -/
theorem visit_place (known : Known) (node : Node) (walk : Walk) :
    (visit known walk node).place = behind known walk.place node := by
  induction node using Node.inductionOnChildren generalizing walk with
  | step node ih =>
      cases isIdentifier : node.kind.isIdentifier with
      | true =>
          obtain ⟨name, typePosition, kind⟩ := Kind.exists_of_isIdentifier isIdentifier
          rw [visit_of_identifier known walk kind, resolveName_place,
            behind_of_isIdentifier isIdentifier]
      | false =>
          have inside := visitChildren_place known node ih (enter known walk node)
          rw [enter_place] at inside
          rw [visit_eq known walk isIdentifier]
          generalize visitChildren known node (enter known walk node) node.children = visited
            at inside
          cases shape node with
          | identifier true =>
              rw [isIdentifier] at true
              cases true
          | frame opens =>
              obtain ⟨declared, declares⟩ :=
                behindAmong_eq known node (below known walk.place node) node.children
              rw [leave_of_opensFrame opens, behind_of_opensFrame opens]
              rw [declares, below_of_opensFrame opens] at inside
              exact closeFrame_place inside
          | plain closed noClass noVariable below behind _ =>
              rw [leave_of_plain closed noClass noVariable, inside, below, behind]
          | «variable» kind =>
              rw [leave_place_of_variable known visited kind, inside, below_of_variable kind,
                behind_of_variable kind]
          | classDecl kind =>
              obtain ⟨declared, declares⟩ :=
                behindAmong_eq known node (below known walk.place node) node.children
              have classes : visited.place.classes = (below known walk.place node).classes := by
                rw [inside, declares, Place.classes_declare]
              rw [leave_place_of_classDecl kind classes, inside, behind_of_classDecl kind]

/-- A snapshot that is kept shows the visible names. -/
def Fresh (known : Known) (walk : Walk) : Prop :=
  ∀ snapshot, walk.snapshot = some snapshot → snapshot.scope = known.scopeAt walk.place

/-- Between two moments of the walk only nodes with some ids were noted, and the snapshot was
kept fresh. -/
structure Keeps (known : Known) (ids : List Nat) (walk later : Walk) : Prop where
  symbols : ∀ id, id ∉ ids → later.symbols[id]? = walk.symbols[id]?
  scopes : ∀ id, id ∉ ids → later.scopes[id]? = walk.scopes[id]?
  fresh : walk.Fresh known → later.Fresh known

namespace Keeps

variable {later last : Walk}

theorem refl (known : Known) (ids : List Nat) (walk : Walk) : Keeps known ids walk walk :=
  ⟨fun _ _ => rfl, fun _ _ => rfl, id⟩

theorem trans (first : Keeps known ids walk later) (second : Keeps known ids later last) :
    Keeps known ids walk last where
  symbols id foreign := (second.symbols id foreign).trans (first.symbols id foreign)
  scopes id foreign := (second.scopes id foreign).trans (first.scopes id foreign)
  fresh := second.fresh ∘ first.fresh

theorem mono {more : List Nat} (subset : ids ⊆ more) (keeps : Keeps known ids walk later) :
    Keeps known more walk later where
  symbols id foreign := keeps.symbols id (foreign ∘ @subset id)
  scopes id foreign := keeps.scopes id (foreign ∘ @subset id)
  fresh := keeps.fresh

end Keeps

theorem note_keeps (known : Known) (walk : Walk) (symbol : Symbol) (own : id ∈ ids) :
    Keeps known ids walk (walk.note id symbol) where
  symbols other foreign := by
    have apart : id ≠ other := fun same => foreign (same ▸ own)
    simp [note, Std.TreeMap.getElem?_insert, apart]
  scopes _ _ := rfl
  fresh fresh := fresh

theorem refresh_keeps (known : Known) (ids : List Nat) (walk : Walk) :
    Keeps known ids walk (walk.refresh known).1 := by
  rw [refresh]
  split
  · exact .refl known ids walk
  · exact ⟨fun _ _ => rfl, fun _ _ => rfl, fun _ _ same => by cases same; rfl⟩

/-- The snapshot for a node shows the visible names. -/
theorem refresh_scope (fresh : walk.Fresh known) :
    (walk.refresh known).2.scope = known.scopeAt walk.place := by
  rw [refresh]
  split
  · next snapshot taken => exact fresh snapshot taken
  · rfl

theorem noteScope_keeps (known : Known) (walk : Walk) (own : id ∈ ids) :
    Keeps known ids walk (walk.noteScope known id) := by
  refine (refresh_keeps known ids walk).trans
    ⟨fun _ _ => rfl, fun other foreign => ?_, fun fresh => fresh⟩
  have apart : id ≠ other := fun same => foreign (same ▸ own)
  simp [noteScope, Std.TreeMap.getElem?_insert, apart]

theorem resolveName_keeps (known : Known) (walk : Walk) (name : String) (typePosition : Bool)
    (own : id ∈ ids) : Keeps known ids walk (walk.resolveName known id name typePosition) := by
  rw [resolveName]
  split
  · exact note_keeps known walk _ own
  · refine Keeps.trans ?_ (noteScope_keeps known _ own)
    split
    · exact note_keeps known walk _ own
    · exact .refl known ids walk

theorem enterClass_keeps (known : Known) (ids : List Nat) (walk : Walk) (name : String) :
    Keeps known ids walk (walk.enterClass name) :=
  ⟨fun _ _ => rfl, fun _ _ => rfl, fun _ _ same => nomatch same⟩

theorem leaveClass_keeps (known : Known) (ids : List Nat) (walk : Walk) :
    Keeps known ids walk walk.leaveClass :=
  ⟨fun _ _ => rfl, fun _ _ => rfl, fun _ _ same => nomatch same⟩

theorem openFrame_keeps (known : Known) (ids : List Nat) (walk : Walk) :
    Keeps known ids walk walk.openFrame :=
  ⟨fun _ _ => rfl, fun _ _ => rfl, fun fresh => fresh⟩

theorem closeFrame_keeps (known : Known) (ids : List Nat) (walk : Walk) :
    Keeps known ids walk walk.closeFrame := by
  obtain ⟨⟨classes, frames⟩, symbols, scopes, snapshot, taken⟩ := walk
  cases frames with
  | nil => exact .refl known ids _
  | cons frame outer =>
      refine ⟨fun _ _ => rfl, fun _ _ => rfl, fun fresh snapshot same => ?_⟩
      -- the snapshot is kept only if the frame hid nothing
      cases frame with
      | nil => exact fresh snapshot same
      | cons declared rest => cases same

theorem declare_keeps (known : Known) (ids : List Nat) (walk : Walk) (node : Node)
    (name : String) (kind : SymbolKind) :
    Keeps known ids walk (walk.declare known node name kind) := by
  obtain ⟨⟨classes, frames⟩, symbols, scopes, snapshot, taken⟩ := walk
  cases frames with
  | nil => exact .refl known ids _
  | cons frame outer => exact ⟨fun _ _ => rfl, fun _ _ => rfl, fun _ _ same => nomatch same⟩

/-- The ids that are noted when a node is entered: its own, and those of dotted names. -/
def enteredIds (node : Node) : List Nat :=
  node.id :: (node.children.filter fun child => child.kind = .memberSelect).map (·.id)

theorem enteredIds_subset (node : Node) : enteredIds node ⊆ node.preorder.map (·.id) := by
  refine List.cons_subset.mpr ⟨List.mem_map_of_mem node.mem_preorder_self, ?_⟩
  refine List.map_subset _ fun child dotted => ?_
  exact Node.mem_preorder_of_mem_children (List.mem_filter.mp dotted).1 child.mem_preorder_self

theorem noteConstructed_keeps (known : Known) (walk : Walk) (node : Node) :
    Keeps known (enteredIds node) walk (walk.noteConstructed node) := by
  rw [noteConstructed]
  split
  · next type found =>
      split
      · next dotted =>
          have member : type ∈ node.children := List.mem_of_find?_eq_some found
          exact note_keeps known walk _ (List.mem_cons_of_mem _ (List.mem_map_of_mem
            (List.mem_filter.mpr ⟨member, by simpa using dotted⟩)))
      · exact .refl known _ walk
  · exact .refl known _ walk

theorem enter_keeps (known : Known) (walk : Walk) (node : Node) :
    Keeps known (enteredIds node) walk (enter known walk node) := by
  have own : node.id ∈ enteredIds node := List.mem_cons_self
  rw [enter]
  cases node.kind with
  | classDecl name flavor =>
      dsimp only
      split
      · exact .refl known _ walk
      · exact enterClass_keeps known _ walk _
  | parameterizedType => exact note_keeps known walk _ own
  | invocation select => exact note_keeps known walk _ own
  | creation => exact noteConstructed_keeps known walk node
  | _ =>
      dsimp only
      split
      · exact openFrame_keeps known _ walk
      · exact .refl known _ walk

theorem leave_keeps (known : Known) (ids : List Nat) (node : Node) (visited : Walk) :
    Keeps known ids visited (leave known node visited) := by
  rw [leave]
  cases node.kind with
  | classDecl name flavor =>
      dsimp only
      split
      · exact .refl known ids visited
      · exact leaveClass_keeps known ids visited
  | variableDecl name =>
      dsimp only
      split
      · exact declare_keeps known ids visited node name _
      · exact .refl known ids visited
  | _ =>
      dsimp only
      split
      · exact closeFrame_keeps known ids visited
      · exact .refl known ids visited

theorem visitChildren_keeps_of_each (known : Known) (parent : Node) {children : List Node}
    (each : ∀ child ∈ children, ∀ walk,
      Keeps known (child.preorder.map (·.id)) walk (visit known walk child)) (walk : Walk) :
    Keeps known (Node.idsAmong children) walk (visitChildren known parent walk children) := by
  induction children generalizing walk with
  | nil => exact .refl known _ walk
  | cons child rest ih =>
      have later := ih fun later member => each later (List.mem_cons_of_mem _ member)
      rw [visitChildren_cons, Node.idsAmong_cons]
      refine Keeps.trans ?_ ((later _).mono (List.subset_append_right _ _))
      refine Keeps.mono (List.subset_append_left _ _) ?_
      rw [visitChild]
      split
      · exact note_keeps known walk _ (List.mem_map_of_mem child.mem_preorder_self)
      · exact each child List.mem_cons_self walk

/-- A visit notes only nodes of the tree, and keeps the snapshot fresh. -/
theorem visit_keeps (known : Known) (node : Node) (walk : Walk) :
    Keeps known (node.preorder.map (·.id)) walk (visit known walk node) := by
  induction node using Node.inductionOnChildren generalizing walk with
  | step node ih =>
      cases isIdentifier : node.kind.isIdentifier with
      | true =>
          obtain ⟨name, typePosition, kind⟩ := Kind.exists_of_isIdentifier isIdentifier
          rw [visit_of_identifier known walk kind]
          exact resolveName_keeps known walk name typePosition
            (List.mem_map_of_mem node.mem_preorder_self)
      | false =>
          rw [visit_eq known walk isIdentifier]
          have entered := (enter_keeps known walk node).mono (enteredIds_subset node)
          have visited := (visitChildren_keeps_of_each known node ih (enter known walk node)).mono
            node.idsAmong_children_subset
          exact (entered.trans visited).trans (leave_keeps known _ node _)

theorem visitChildren_keeps (known : Known) (parent : Node) (children : List Node) (walk : Walk) :
    Keeps known (Node.idsAmong children) walk (visitChildren known parent walk children) :=
  visitChildren_keeps_of_each known parent (fun child _ => visit_keeps known child) walk

end Walk

end JavaStructure.Resolution
