/-
# Shared snapshots

The walk shares one snapshot of the visible names among nodes for as long as it keeps it.
Beside it stands a walk that keeps none, so that every scope is computed where the name
stands. The two are followed step by step: they are at the same place with the same symbols,
and they show the same scopes, because a snapshot that is kept shows what is visible. So a
resolution gives the same answers with and without sharing.
-/

import JavaStructure.Proofs.Resolution.Notes
import JavaStructure.Resolution

namespace JavaStructure.Resolution

open Syntax (Node Kind Leads Trail)

namespace Walk

variable {known : Known} {node parent : Node} {shared single : Walk}

/-- The walk without the snapshot that it keeps. -/
def withoutSnapshot (walk : Walk) : Walk :=
  { walk with snapshot := none }

mutual

/-- Visit a node, with a scope computed anew for every name. -/
def visitAnew (known : Known) (walk : Walk) : Node → Walk
  | node@⟨id, kind, _, _, _, children⟩ =>
      match kind with
      | .identifier name typePosition =>
          walk.withoutSnapshot.resolveName known id name typePosition
      | _ => leave known node (visitChildrenAnew known node (enter known walk node) children)

/-- Visit some children of a node, with a scope computed anew for every name. -/
def visitChildrenAnew (known : Known) (parent : Node) (walk : Walk) : List Node → Walk
  | [] => walk
  | child :: rest =>
      let walk :=
        if parent.isCallName child then
          walk.note child.id { kind := .method, name := calledMethod parent }
        else visitAnew known walk child
      visitChildrenAnew known parent walk rest

end

theorem visitAnew_of_identifier (known : Known) (walk : Walk) {name : String}
    {typePosition : Bool} (kind : node.kind = .identifier name typePosition) :
    visitAnew known walk node =
      walk.withoutSnapshot.resolveName known node.id name typePosition := by
  obtain ⟨id, _, role, text, line, children⟩ := node
  subst kind
  rw [visitAnew]

theorem visitAnew_eq (known : Known) (walk : Walk)
    (noIdentifier : node.kind.isIdentifier = false) :
    visitAnew known walk node =
      leave known node
        (visitChildrenAnew known node (enter known walk node) node.children) := by
  obtain ⟨id, kind, role, text, line, children⟩ := node
  cases kind with
  | identifier name typePosition => cases noIdentifier
  | _ => simp only [visitAnew]

/-- A walk that shares snapshots and one that keeps none are at the same place and have noted
the same, and the snapshot that is kept shows the visible names. -/
structure Agrees (known : Known) (shared single : Walk) : Prop where
  place : single.place = shared.place
  symbols : single.symbols = shared.symbols
  scopes : ∀ id : Nat,
    (single.scopes[id]?).map (·.scope) = (shared.scopes[id]?).map (·.scope)
  fresh : shared.Fresh known

namespace Agrees

theorem empty (known : Known) : Agrees known {} {} :=
  ⟨rfl, rfl, fun _ => rfl, fun _ same => nomatch same⟩

theorem note (agrees : Agrees known shared single) (id : Nat) (symbol : Symbol) :
    Agrees known (shared.note id symbol) (single.note id symbol) :=
  ⟨agrees.place, by rw [Walk.note, Walk.note, agrees.symbols], agrees.scopes, agrees.fresh⟩

theorem noteConstructed (agrees : Agrees known shared single) (node : Node) :
    Agrees known (shared.noteConstructed node) (single.noteConstructed node) := by
  rw [Walk.noteConstructed, Walk.noteConstructed]
  split
  · split
    · exact agrees.note _ _
    · exact agrees
  · exact agrees

theorem openFrame (agrees : Agrees known shared single) :
    Agrees known shared.openFrame single.openFrame :=
  ⟨by rw [Walk.openFrame, Walk.openFrame, agrees.place], agrees.symbols, agrees.scopes,
    agrees.fresh⟩

theorem enterClass (agrees : Agrees known shared single) (name : String) :
    Agrees known (shared.enterClass name) (single.enterClass name) :=
  ⟨by rw [Walk.enterClass, Walk.enterClass, agrees.place], agrees.symbols, agrees.scopes,
    fun _ same => nomatch same⟩

theorem leaveClass (agrees : Agrees known shared single) :
    Agrees known shared.leaveClass single.leaveClass :=
  ⟨by rw [Walk.leaveClass, Walk.leaveClass, agrees.place], agrees.symbols, agrees.scopes,
    fun _ same => nomatch same⟩

theorem declare (agrees : Agrees known shared single) (node : Node) (name : String)
    (kind : SymbolKind) :
    Agrees known (shared.declare known node name kind) (single.declare known node name kind) := by
  have fresh := (declare_keeps known [] shared node name kind).fresh agrees.fresh
  obtain ⟨place, symbols, scopes, snapshot, taken⟩ := shared
  obtain ⟨placeToo, symbolsToo, scopesToo, snapshotToo, takenToo⟩ := single
  obtain rfl : placeToo = place := agrees.place
  obtain ⟨classes, frames⟩ := placeToo
  cases frames with
  | nil => exact ⟨rfl, agrees.symbols, agrees.scopes, fresh⟩
  | cons frame outer => exact ⟨rfl, agrees.symbols, agrees.scopes, fresh⟩

theorem closeFrame (agrees : Agrees known shared single) :
    Agrees known shared.closeFrame single.closeFrame := by
  have fresh := (closeFrame_keeps known [] shared).fresh agrees.fresh
  obtain ⟨place, symbols, scopes, snapshot, taken⟩ := shared
  obtain ⟨placeToo, symbolsToo, scopesToo, snapshotToo, takenToo⟩ := single
  obtain rfl : placeToo = place := agrees.place
  obtain ⟨classes, frames⟩ := placeToo
  cases frames with
  | nil => exact ⟨rfl, agrees.symbols, agrees.scopes, fresh⟩
  | cons frame outer => exact ⟨rfl, agrees.symbols, agrees.scopes, fresh⟩

/-- A scope that is computed anew is the one that a kept snapshot shows. -/
theorem noteScope (agrees : Agrees known shared single) (id : Nat) :
    Agrees known (shared.noteScope known id) (single.withoutSnapshot.noteScope known id) := by
  have own : (known.scopeAt single.place) = (shared.refresh known).2.scope := by
    rw [refresh_scope agrees.fresh, agrees.place]
  have noted := noteScope_keeps known shared (List.mem_singleton_self id)
  refine ⟨?_, ?_, fun other => ?_, noted.fresh agrees.fresh⟩
  · rw [noteScope_place, noteScope_place]
    exact agrees.place
  · rw [noteScope_symbols, noteScope_symbols]
    exact agrees.symbols
  · have kept : (shared.refresh known).1.scopes = shared.scopes := by
      rw [refresh]
      split <;> rfl
    have before := agrees.scopes other
    simp only [Walk.noteScope, withoutSnapshot, Std.TreeMap.getElem?_insert, kept]
    split
    · exact congrArg some own
    · exact before

theorem resolveName (agrees : Agrees known shared single) (id : Nat) (name : String)
    (typePosition : Bool) :
    Agrees known (shared.resolveName known id name typePosition)
      (single.withoutSnapshot.resolveName known id name typePosition) := by
  rw [Walk.resolveName, Walk.resolveName]
  split
  · exact ⟨agrees.place, (agrees.note id _).symbols, agrees.scopes, agrees.fresh⟩
  · have place : single.withoutSnapshot.place = shared.place := agrees.place
    rw [place]
    cases known.nameSymbol? shared.place name with
    | none => exact agrees.noteScope id
    | some symbol => exact (agrees.note id symbol).noteScope id

theorem enter (agrees : Agrees known shared single) (node : Node) :
    Agrees known (Walk.enter known shared node) (Walk.enter known single node) := by
  rw [Walk.enter, Walk.enter]
  cases node.kind with
  | classDecl name flavor =>
      dsimp only
      split
      · exact agrees
      · exact agrees.enterClass _
  | parameterizedType => exact agrees.note _ _
  | invocation select =>
      dsimp only
      rw [agrees.place]
      exact agrees.note _ _
  | creation => exact agrees.noteConstructed node
  | _ =>
      dsimp only
      split
      · exact agrees.openFrame
      · exact agrees

theorem leave (agrees : Agrees known shared single) (node : Node) :
    Agrees known (Walk.leave known node shared) (Walk.leave known node single) := by
  rw [Walk.leave, Walk.leave]
  cases node.kind with
  | classDecl name flavor =>
      dsimp only
      split
      · exact agrees
      · exact agrees.leaveClass
  | variableDecl name =>
      dsimp only
      split
      · exact agrees.declare node name _
      · exact agrees
  | _ =>
      dsimp only
      split
      · exact agrees.closeFrame
      · exact agrees

theorem visitChildren (parent : Node) {children : List Node}
    (each : ∀ child ∈ children, ∀ {shared single : Walk}, Agrees known shared single →
      Agrees known (visit known shared child) (visitAnew known single child))
    (agrees : Agrees known shared single) :
    Agrees known (Walk.visitChildren known parent shared children)
      (visitChildrenAnew known parent single children) := by
  induction children generalizing shared single with
  | nil =>
      rw [visitChildrenAnew]
      exact agrees
  | cons child rest ih =>
      rw [visitChildren_cons, visitChildrenAnew, visitChild]
      refine ih (fun later member => each later (List.mem_cons_of_mem _ member)) ?_
      split
      · exact agrees.note _ _
      · exact each child List.mem_cons_self agrees

/-- Both walks pass a node in agreement. -/
theorem visit (node : Node) (agrees : Agrees known shared single) :
    Agrees known (Walk.visit known shared node) (visitAnew known single node) := by
  induction node using Node.inductionOnChildren generalizing shared single with
  | step node ih =>
      cases isIdentifier : node.kind.isIdentifier with
      | true =>
          obtain ⟨name, typePosition, kind⟩ := Kind.exists_of_isIdentifier isIdentifier
          rw [visit_of_identifier known _ kind, visitAnew_of_identifier known _ kind]
          exact agrees.resolveName node.id name typePosition
      | false =>
          rw [visit_eq known _ isIdentifier, visitAnew_eq known _ isIdentifier]
          exact ((agrees.enter node).visitChildren node ih).leave node

end Agrees

end Walk

/-- Resolve a unit, given other units as context, without sharing scopes. -/
def ofUnitAnew (unit : Node) (lineCount : Nat) (context : List Node) : Resolution :=
  let known := knownIn unit context
  let walk := Walk.visitAnew known {} unit
  { packageName := known.qualifier.names.packageName
    lineCount
    symbols := walk.symbols
    scopes := walk.scopes }

/-- An identifier has the scope that is computed at the end of its trail. -/
theorem Walk.visit_scope_of_open (known : Known) {unit : Node} {trail : Trail} {name : String}
    (distinct : unit.HasDistinctIds) (leads : Leads unit trail node) (opened : trail.IsOpen)
    (kind : node.kind = .identifier name false) :
    ((visit known {} unit).scopes[node.id]?).map (·.scope) =
      some (known.scopeAt (walkAt known trail).place) := by
  rw [visit_scope known distinct leads opened, scopeAt?, kind, walkAt_place]

/-- Sharing scopes changes no answer about a unit. What has a scope are the identifiers that the
walk comes to, and each has the one that is computed where the walk comes to it. -/
theorem scopes_sharedSafely (unit : Node) (lineCount : Nat) (context : List Node)
    (distinct : unit.HasDistinctIds) :
    let known := knownIn unit context
    let resolver := (ofUnit unit lineCount context).toResolver
    resolver = (ofUnitAnew unit lineCount context).toResolver ∧
      ∀ node ∈ unit.preorder, ∀ scope,
        resolver.scope node = some scope ↔
          ∃ trail name, Leads unit trail node ∧ trail.IsOpen ∧
            node.kind = .identifier name false ∧
            scope = known.scopeAt (Walk.walkAt known trail).place := by
  intro known resolver
  have agrees := (Walk.Agrees.empty known).visit unit
  refine ⟨?_, fun node below scope => ⟨fun noted => ?_, ?_⟩⟩
  · have symbols : resolver.symbol = (ofUnitAnew unit lineCount context).toResolver.symbol := by
      funext node
      exact congrArg (·[node.id]?) agrees.symbols.symm
    have scopes : resolver.scope = (ofUnitAnew unit lineCount context).toResolver.scope := by
      funext node
      exact (agrees.scopes node.id).symm
    exact congrArg₂ (Resolver.mk resolver.packageName lineCount) symbols scopes
  · have isScoped : ((Walk.visit known {} unit).scopes[node.id]?).isSome = true := by
      rw [← Option.isSome_map]
      exact Option.isSome_iff_exists.mpr ⟨scope, noted⟩
    obtain ⟨trail, name, leads, opened, kind⟩ :=
      Walk.exists_leads_of_scope known distinct below isScoped
    have own := Walk.visit_scope_of_open known distinct leads opened kind
    exact ⟨trail, name, leads, opened, kind, Option.some.inj (noted.symm.trans own)⟩
  · rintro ⟨trail, name, leads, opened, kind, rfl⟩
    exact Walk.visit_scope_of_open known distinct leads opened kind

/-- The declaration `int a` or `int b` of the method
`int total(int a, int b) { int c = a + b; return c + a; }`. -/
def sumParameter (id : Nat) (name : String) : Node :=
  ⟨id, .variableDecl name, some .parameter, "", 1, []⟩

/-- A name that is used. -/
def sumUse (id : Nat) (name : String) : Node :=
  ⟨id, .identifier name false, none, name, 1, []⟩

/-- The declaration `int c = a + b;`. -/
def sumLocal : Node :=
  ⟨6, .variableDecl "c", none, "", 2,
    [⟨7, .other "binary_expression", some .initialValue, "a + b", 2,
      [sumUse 8 "a", sumUse 9 "b"]⟩]⟩

/-- The statement `return c + a;`. -/
def sumReturn : Node :=
  ⟨10, .returnExit, none, "", 3,
    [⟨11, .other "binary_expression", none, "c + a", 3, [sumUse 12 "c", sumUse 13 "a"]⟩]⟩

/-- The class with that method. -/
def sumUnit : Node :=
  ⟨0, .compilationUnit, none, "", 1,
    [⟨1, .classDecl "Sum" .classType, none, "", 1,
      [⟨2, .methodDecl "total", some .member, "", 1,
        [sumParameter 3 "a", sumParameter 4 "b",
          ⟨5, .block, some .body, "", 1, [sumLocal, sumReturn]⟩]⟩]⟩]⟩

/-- The four names share two snapshots, as the first one is dropped where `c` is declared. -/
theorem sumUnit_scopes_sharedSafely :
    (ofUnit sumUnit 4 []).toResolver = (ofUnitAnew sumUnit 4 []).toResolver ∧
      (ofUnit sumUnit 4 []).scopeCount = 2 ∧ (ofUnitAnew sumUnit 4 []).scopeCount = 4 := by
  have distinct : (sumUnit.preorder.map (·.id)).Nodup := by decide
  exact ⟨(scopes_sharedSafely sumUnit 4 [] distinct).1, by rfl, by rfl⟩

end JavaStructure.Resolution
