/-
# The resolution of condensed trees

A unit is resolved in the same way if it is condensed: it declares the same, its expressions
have the same types, and its nodes have the same symbols and scopes under their new ids. Binary
expressions have no types, declare nothing and open no frames, so it makes no difference
whether their operands stand in them or beside them.
-/

import JavaStructure.Proofs.Resolution.Faithful
import JavaStructure.Proofs.Syntax.Condensed

namespace JavaStructure

open Syntax (Node Kind Role binaryKind)
open Syntax.Node (condensed condensed_eq condensed_children_of_ne childAs_condensed gathered
  spread)

variable {rename : Nat → Nat} {node : Node}

namespace Resolution

/-- No binary expression has a type that is told. -/
theorem isUntyped_binaryKind : IsUntyped binaryKind := by
  rintro known place ⟨id, kind, role, text, line, children⟩ rfl
  rfl

/-- Condensing changes the children of binary expressions only. -/
theorem condensed_isFaithful (rename : Nat → Nat) :
    IsFaithful (fun node => node.kind = binaryKind) (condensed rename) where
  kind := Node.condensed_kind rename
  role := Node.condensed_role rename
  text := Node.condensed_text rename
  children _ other := condensed_children_of_ne rename other
  untyped _ binary := binary ▸ isUntyped_binaryKind

section Declarations

variable (names : Names.Environment) (q : Names.Qualifier)

theorem className?_of_binary (binary : node.kind = binaryKind) : className? names node = none := by
  rw [className?, binary]
  rfl

/-- A condensed tree declares the same names. -/
theorem declaredIn_condensed (rename : Nat → Nat) (node : Node) :
    declaredIn names (node.condensed rename) = declaredIn names node := by
  rw [declaredIn_eq, declaredIn_eq, Node.filterMap_preorder_condensed]
  · intro node binary
    rw [nameRow?, className?_of_binary names binary, Option.map_none]
  · exact (condensed_isFaithful rename).nameRow? names

/-- The class declarations of a condensed tree have the same members. -/
theorem classRow?_condensed (rename : Nat → Nat) (node : Node) :
    classRow? q (node.condensed rename) = classRow? q node := by
  refine (condensed_isFaithful rename).classRow? q (fun name named binary => ?_)
    fun member _ info => ?_
  · rw [className?_of_binary q.names binary] at named
    cases named
  · refine (condensed_isFaithful rename).addMember q info ?_ ?_ <;>
    · intro name kind
      exact (condensed_isFaithful rename).childText (by simp [kind, binaryKind]) _

/-- A condensed tree declares the same classes. -/
theorem classesIn_condensed (rename : Nat → Nat) (node : Node) :
    classesIn q (node.condensed rename) = classesIn q node := by
  rw [classesIn_eq, classesIn_eq, Node.filterMap_preorder_condensed]
  · intro node binary
    rw [classRow?, className?_of_binary q.names binary, Option.map_none]
  · exact classRow?_condensed q rename

end Declarations

/-- The same is known in a condensed unit. -/
theorem knownIn_condensed (rename : Nat → Nat) {unit : Node} (other : unit.kind ≠ binaryKind)
    (context : List Node) : knownIn (unit.condensed rename) context = knownIn unit context := by
  simp [knownIn, Declarations.ofUnits, (condensed_isFaithful rename).environment other,
    declaredIn_condensed, classesIn_condensed]

/-- A walk over a condensed tree has noted the same as one over the tree itself. -/
structure Walk.Renames (rename : Nat → Nat) (walk renamed : Walk) : Prop where
  place : renamed.place = walk.place
  snapshot : renamed.snapshot = walk.snapshot
  taken : renamed.taken = walk.taken
  symbols : ∀ id : Nat, renamed.symbols[rename id]? = walk.symbols[id]?
  scopes : ∀ id : Nat, renamed.scopes[rename id]? = walk.scopes[id]?

namespace Walk

variable {known : Known} {walk renamed : Walk} {parent : Node} {nodes : List Node}

/-- An operand is visited for its own operands. -/
theorem visitChildren_gathered (known : Known) (parent : Node) (walk : Walk)
    (nodes : List Node) :
    visitChildren known parent walk (gathered parent.kind nodes) =
      visitChildren known parent walk nodes := by
  rw [gathered]
  split
  · next binary =>
      have noCall : parent.kind.isCall = false := by rw [binary]; rfl
      have operand (node : Node) (walk : Walk) :
          visitChildren known parent walk node.spread = visitChild known parent walk node := by
        rw [spread]
        split
        · next operand =>
            obtain ⟨id, kind, role, text, line, children⟩ := node
            obtain ⟨rfl, -⟩ := operand
            rw [← visitAll_eq known noCall, visitChild, Node.isCallName, noCall]
            simp only [visit, binaryKind]
            rfl
        · rfl
      induction nodes generalizing walk with
      | nil => rfl
      | cons node rest ih =>
          rw [List.flatMap_cons, visitChildren_append, operand, ih, visitChildren_cons]
  · rfl

/-- What is entered under a renamed key is found under renamed keys. -/
theorem getElem?_insert_renamed {Value : Type} (keepsApart : Function.Injective rename)
    {table renamedTable : Std.TreeMap Nat Value}
    (same : ∀ id : Nat, renamedTable[rename id]? = table[id]?) (id : Nat) (value : Value)
    (wanted : Nat) :
    (renamedTable.insert (rename id) value)[rename wanted]? = (table.insert id value)[wanted]? := by
  by_cases equal : id = wanted
  · simp [equal]
  · have apart : rename id ≠ rename wanted := fun clash => equal (keepsApart clash)
    simp [Std.TreeMap.getElem?_insert, equal, apart, same]

namespace Renames

variable (related : Renames rename walk renamed)

include related

theorem note (keepsApart : Function.Injective rename) (id : Nat) (symbol : Symbol) :
    Renames rename (walk.note id symbol) (renamed.note (rename id) symbol) where
  place := related.place
  snapshot := related.snapshot
  taken := related.taken
  symbols := getElem?_insert_renamed keepsApart related.symbols id symbol
  scopes := related.scopes

theorem refresh (known : Known) :
    Renames rename (walk.refresh known).1 (renamed.refresh known).1 ∧
      (renamed.refresh known).2 = (walk.refresh known).2 := by
  rw [Walk.refresh, Walk.refresh, related.snapshot]
  cases walk.snapshot with
  | some snapshot => exact ⟨related, rfl⟩
  | none =>
      dsimp only
      rw [related.place, related.taken]
      exact ⟨⟨rfl, rfl, rfl, related.symbols, related.scopes⟩, rfl⟩

theorem noteScope (keepsApart : Function.Injective rename) (known : Known) (id : Nat) :
    Renames rename (walk.noteScope known id) (renamed.noteScope known (rename id)) := by
  obtain ⟨refreshed, same⟩ := related.refresh known
  refine ⟨refreshed.place, refreshed.snapshot, refreshed.taken, refreshed.symbols, fun other => ?_⟩
  simp only [Walk.noteScope, same]
  exact getElem?_insert_renamed keepsApart refreshed.scopes id _ other

theorem resolveName (keepsApart : Function.Injective rename) (known : Known) (id : Nat)
    (name : String) (typePosition : Bool) :
    Renames rename (walk.resolveName known id name typePosition)
      (renamed.resolveName known (rename id) name typePosition) := by
  rw [Walk.resolveName, Walk.resolveName, related.place]
  split
  · exact related.note keepsApart id _
  · refine Renames.noteScope ?_ keepsApart known id
    split
    · exact related.note keepsApart id _
    · exact related

/-- A change of the place that makes the snapshot stale or not. -/
theorem move (place : Place) (snapshot : Option Snapshot) :
    Renames rename { walk with place, snapshot } { renamed with place, snapshot } :=
  ⟨rfl, rfl, related.taken, related.symbols, related.scopes⟩

theorem noteConstructed (keepsApart : Function.Injective rename) (other : node.kind ≠ binaryKind) :
    Renames rename (walk.noteConstructed node)
      (renamed.noteConstructed (node.condensed rename)) := by
  rw [Walk.noteConstructed, Walk.noteConstructed, childAs_condensed rename other]
  cases node.childAs .identifier with
  | none => exact related
  | some type =>
      simp only [Option.map_some, Node.condensed_kind, Node.condensed_text, Node.condensed_id]
      split
      · exact related.note keepsApart _ _
      · exact related

theorem declare (known : Known) (other : node.kind ≠ binaryKind) (name : String)
    (kind : SymbolKind) :
    Renames rename (walk.declare known node name kind)
      (renamed.declare known (node.condensed rename) name kind) := by
  rw [Walk.declare, Walk.declare, related.place,
    (condensed_isFaithful rename).declaredType known _ other]
  split
  · exact related
  · exact related.move _ none

theorem closeFrame : Renames rename walk.closeFrame renamed.closeFrame := by
  rw [Walk.closeFrame, Walk.closeFrame, related.place, related.snapshot]
  split
  · exact related
  · exact related.move _ _

theorem openFrame : Renames rename walk.openFrame renamed.openFrame :=
  ⟨by simp [Walk.openFrame, related.place], related.snapshot, related.taken, related.symbols,
    related.scopes⟩

theorem enterClass (name : String) :
    Renames rename (walk.enterClass name) (renamed.enterClass name) :=
  ⟨by simp [Walk.enterClass, related.place], rfl, related.taken, related.symbols, related.scopes⟩

theorem leaveClass : Renames rename walk.leaveClass renamed.leaveClass :=
  ⟨by simp [Walk.leaveClass, related.place], rfl, related.taken, related.symbols, related.scopes⟩

theorem enter (keepsApart : Function.Injective rename) (known : Known) (node : Node) :
    Renames rename (Walk.enter known walk node)
      (Walk.enter known renamed (node.condensed rename)) := by
  rw [Walk.enter, Walk.enter, Node.condensed_kind, Node.condensed_id, Node.condensed_text,
    related.place]
  cases kind : node.kind with
  | classDecl name flavor =>
      dsimp only
      split
      · exact related
      · exact related.enterClass _
  | parameterizedType => exact related.note keepsApart _ _
  | invocation select =>
      dsimp only
      rw [(condensed_isFaithful rename).callSymbol known _ (by simp [kind, binaryKind])]
      exact related.note keepsApart _ _
  | creation => exact related.noteConstructed keepsApart (by simp [kind, binaryKind])
  | _ =>
      dsimp only
      split
      · exact related.openFrame
      · exact related

theorem leave (known : Known) (node : Node) :
    Renames rename (Walk.leave known node walk)
      (Walk.leave known (node.condensed rename) renamed) := by
  rw [Walk.leave, Walk.leave, Node.condensed_kind, Node.condensed_role]
  cases kind : node.kind with
  | classDecl name flavor =>
      dsimp only
      split
      · exact related
      · exact related.leaveClass
  | variableDecl name =>
      dsimp only
      split
      · exact related.declare known (by simp [kind, binaryKind]) name _
      · exact related
  | _ =>
      dsimp only
      split
      · exact related.closeFrame
      · exact related

omit related

theorem visitChildren (keepsApart : Function.Injective rename) (known : Known) (parent : Node)
    (each : ∀ node ∈ nodes, ∀ {walk renamed : Walk}, Renames rename walk renamed →
      Renames rename (visit known walk node) (visit known renamed (node.condensed rename)))
    (related : Renames rename walk renamed) :
    Renames rename (Walk.visitChildren known parent walk nodes)
      (Walk.visitChildren known (parent.condensed rename) renamed
        (nodes.map (condensed rename))) := by
  have called (call : parent.kind.isCall = true) :
      calledMethod (parent.condensed rename) = calledMethod parent := by
    have other : parent.kind ≠ binaryKind := by
      intro binary
      rw [binary] at call
      cases call
    exact (condensed_isFaithful rename).calledMethod other
  induction nodes generalizing walk renamed with
  | nil => exact related
  | cons node rest ih =>
      obtain ⟨own, later⟩ := List.forall_mem_cons.mp each
      rw [List.map_cons, visitChildren_cons, visitChildren_cons]
      refine ih later ?_
      rw [visitChild, visitChild, Node.isCallName, Node.isCallName, Node.condensed_kind,
        Node.condensed_role, Node.condensed_id]
      split
      · next name =>
          rw [called (Bool.and_eq_true_iff.mp name).1]
          exact related.note keepsApart _ _
      · exact own related

/-- A condensed node is visited as the node itself. -/
theorem visit (keepsApart : Function.Injective rename) (known : Known) (node : Node)
    (related : Renames rename walk renamed) :
    Renames rename (Walk.visit known walk node)
      (Walk.visit known renamed (node.condensed rename)) := by
  induction node using Node.inductionOnChildren generalizing walk renamed with
  | step node ih =>
      cases isIdentifier : node.kind.isIdentifier with
      | true =>
          obtain ⟨name, typePosition, kind⟩ := Syntax.Kind.exists_of_isIdentifier isIdentifier
          have kindCondensed : (node.condensed rename).kind = .identifier name typePosition := by
            rw [Node.condensed_kind, kind]
          rw [visit_of_identifier known walk kind,
            visit_of_identifier known renamed kindCondensed, Node.condensed_id]
          exact related.resolveName keepsApart known _ _ _
      | false =>
          have noIdentifier : (node.condensed rename).kind.isIdentifier = false := by
            rw [Node.condensed_kind, isIdentifier]
          rw [visit_eq known walk isIdentifier, visit_eq known renamed noIdentifier,
            Node.condensed_children, ← Node.condensed_kind rename node, visitChildren_gathered]
          exact (visitChildren keepsApart known node ih
            (related.enter keepsApart known node)).leave known node

end Renames

end Walk

end Resolution

/-- A resolver answers about a condensed tree as another one does about the tree itself. -/
structure Resolver.Renames (rename : Nat → Nat) (resolver renamed : Resolver) : Prop where
  packageName : renamed.packageName = resolver.packageName
  lineCount : renamed.lineCount = resolver.lineCount
  symbol : ∀ node : Node, renamed.symbol (node.condensed rename) = resolver.symbol node
  scope : ∀ node : Node, renamed.scope (node.condensed rename) = resolver.scope node

/-- The nodes of a condensed unit have the symbols and scopes of those they stand for. -/
theorem Resolution.toResolver_renames (keepsApart : Function.Injective rename) {unit : Node}
    (other : unit.kind ≠ binaryKind) (lineCount : Nat) (context : List Node) :
    Resolver.Renames rename (ofUnit unit lineCount context).toResolver
      (ofUnit (unit.condensed rename) lineCount context).toResolver := by
  have start : Walk.Renames rename {} {} := ⟨rfl, rfl, rfl, fun _ => by simp, fun _ => by simp⟩
  have walks := start.visit keepsApart (knownIn unit context) unit
  have known := knownIn_condensed rename other context
  refine ⟨by simp only [toResolver, ofUnit, known], rfl, fun node => ?_, fun node => ?_⟩
  · simp only [toResolver, ofUnit, known, Node.condensed_id, walks.symbols]
  · simp only [toResolver, ofUnit, known, Node.condensed_id, walks.scopes]

end JavaStructure
