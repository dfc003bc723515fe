/-
# What is noted for a node

The walk comes to a node once, by the trail that leads to it, and nothing noted earlier or
later is noted under its id, but for the dotted name of a constructed type. So the symbol and
the scope of a node are those at the end of its trail: an identifier has the symbol of its
name there and the names that are visible there, and a call has the type that it is made on
there. The name of a call has the symbol of a method, and nothing is noted below it.
-/

import JavaStructure.Proofs.Resolution.Visit
import Mathlib.Data.List.Nodup

namespace JavaStructure.Resolution

open Syntax (Node Kind Role Step Trail Leads)

variable {root node parent child : Node} {before after : List Node} {trail : Trail}

namespace Walk

/-- The walk as it comes to the end of a trail. -/
def walkAt (known : Known) : Trail → Walk
  | [] => {}
  | step :: outer =>
      visitChildren known step.parent (enter known (walkAt known outer) step.parent) step.before

theorem walkAt_place (known : Known) (trail : Trail) :
    (walkAt known trail).place = placeAt known trail := by
  induction trail with
  | nil => rfl
  | cons step outer ih =>
      rw [walkAt, placeAt, visitChildren_place known step.parent fun child _ =>
          visit_place known child, enter_place, ih]

theorem walkAt_fresh (known : Known) (trail : Trail) : (walkAt known trail).Fresh known := by
  induction trail with
  | nil => exact fun _ same => nomatch same
  | cons step outer ih =>
      have entered := enter_keeps known (walkAt known outer) step.parent
      have visited := visitChildren_keeps known step.parent step.before
        (enter known (walkAt known outer) step.parent)
      exact visited.fresh (entered.fresh ih)

/-- A visit of a node comes to its child at the end of the child's trail. -/
theorem visit_split (known : Known) (trail : Trail)
    (noIdentifier : parent.kind.isIdentifier = false)
    (children : parent.children = before ++ child :: after)
    (notName : parent.isCallName child = false) :
    visit known (walkAt known trail) parent =
      leave known parent
        (visitChildren known parent (visit known (walkAt known (⟨parent, before⟩ :: trail)) child)
          after) := by
  rw [visit_eq known _ noIdentifier, children, visitChildren_append, visitChildren_cons,
    visitChild, notName]
  rfl

/-- What is noted below a node is not touched after the visit of the node. -/
theorem visit_untouched (known : Known) (distinct : root.HasDistinctIds)
    (leads : Leads root trail node) (opened : trail.IsOpen) {inner : Node}
    (below : inner ∈ node.preorder) :
    (visit known {} root).symbols[inner.id]? =
        (visit known (walkAt known trail) node).symbols[inner.id]? ∧
      (visit known {} root).scopes[inner.id]? =
        (visit known (walkAt known trail) node).scopes[inner.id]? := by
  induction leads with
  | root => exact ⟨rfl, rfl⟩
  | @child trail parent child before after above children notName ih =>
      obtain ⟨noIdentifier, openedAbove⟩ := List.forall_mem_cons.mp opened
      have member : child ∈ parent.children := by simp [children]
      have foreign := (((distinct.of_mem above.mem_preorder).split children).2 inner below).2
      have later := visitChildren_keeps known parent after
        (visit known (walkAt known (⟨parent, before⟩ :: trail)) child)
      have kept := later.trans (leave_keeps known _ parent _)
      have above := ih openedAbove (Node.mem_preorder_of_mem_children member below)
      rw [above.1, above.2, visit_split known trail noIdentifier children notName]
      exact ⟨kept.symbols inner.id foreign, kept.scopes inner.id foreign⟩

theorem enter_scopes (known : Known) (walk : Walk) (node : Node) :
    (enter known walk node).scopes = walk.scopes := by
  rw [enter]
  cases node.kind with
  | classDecl name flavor =>
      dsimp only
      split <;> rfl
  | creation =>
      dsimp only
      rw [noteConstructed]
      split
      · split <;> rfl
      · rfl
  | _ =>
      dsimp only
      first | rfl | (split <;> rfl)

/-- Entering a node notes nothing of the nodes below its children. -/
theorem not_mem_enteredIds (distinct : parent.HasDistinctIds) (member : child ∈ parent.children)
    {inner : Node} (below : inner ∈ Node.preorder.preorderAll child.children) :
    inner.id ∉ enteredIds parent := by
  have inside : inner ∈ child.preorder := by
    rw [Node.preorder_eq]
    exact List.mem_cons_of_mem _ below
  intro entered
  rcases List.mem_cons.mp entered with own | dotted
  · refine distinct.notBelow (own ▸ List.mem_map_of_mem ?_)
    exact Node.mem_preorderAll.mpr ⟨child, member, inside⟩
  · obtain ⟨type, found, same⟩ := List.mem_map.mp dotted
    have memberType := (List.mem_filter.mp found).1
    obtain ⟨before, after, children⟩ := List.append_of_mem member
    obtain ⟨distinctChild, apart⟩ := distinct.split children
    have typeBelow : type ∈ type.preorder := type.mem_preorder_self
    have among (nodes : List Node) (member : type ∈ nodes) : inner.id ∈ Node.idsAmong nodes :=
      same ▸ List.mem_map_of_mem (Node.mem_preorderAll.mpr ⟨type, member, typeBelow⟩)
    rw [children, List.mem_append, List.mem_cons] at memberType
    rcases memberType with early | rfl | late
    · exact (apart inner inside).1 (among before early)
    · exact distinctChild.notBelow (same ▸ List.mem_map_of_mem below)
    · exact (apart inner inside).2 (among after late)

/-- Nothing is noted below a node before the walk comes to it. -/
theorem walkAt_unnoted (known : Known) (distinct : root.HasDistinctIds)
    (leads : Leads root trail node) {inner : Node}
    (below : inner ∈ Node.preorder.preorderAll node.children) :
    (walkAt known trail).symbols[inner.id]? = none := by
  induction leads with
  | root => exact Std.TreeMap.getElem?_emptyc
  | @child trail parent child before after above children notName ih =>
      have member : child ∈ parent.children := by simp [children]
      have inside : inner ∈ child.preorder := by
        rw [Node.preorder_eq]
        exact List.mem_cons_of_mem _ below
      have distinctParent := distinct.of_mem above.mem_preorder
      have notBefore := ((distinctParent.split children).2 inner inside).1
      have entered := enter_keeps known (walkAt known trail) parent
      have visited := visitChildren_keeps known parent before
        (enter known (walkAt known trail) parent)
      rw [walkAt, visited.symbols inner.id notBefore,
        entered.symbols inner.id (not_mem_enteredIds distinctParent member below)]
      exact ih (Node.mem_preorderAll.mpr ⟨child, member, inside⟩)

/-- No scope of a node, or of one below it, is noted before the walk comes to it. -/
theorem walkAt_unscoped (known : Known) (distinct : root.HasDistinctIds)
    (leads : Leads root trail node) {inner : Node} (below : inner ∈ node.preorder) :
    (walkAt known trail).scopes[inner.id]? = none := by
  induction leads with
  | root => exact Std.TreeMap.getElem?_emptyc
  | @child trail parent child before after above children notName ih =>
      have member : child ∈ parent.children := by simp [children]
      have distinctParent := distinct.of_mem above.mem_preorder
      have notBefore := ((distinctParent.split children).2 inner below).1
      have visited := visitChildren_keeps known parent before
        (enter known (walkAt known trail) parent)
      rw [walkAt, visited.scopes inner.id notBefore, enter_scopes]
      exact ih (Node.mem_preorder_of_mem_children member below)

/-- The symbol of a constructed type with a dotted name. -/
def constructedSymbol (text : String) : Symbol :=
  let name := Text.unspaced (Names.erase text)
  { kind := .classSymbol, name, qualifiedName := some name }

/-- Whether a node at the end of a trail is the type of a construction. -/
def isConstructed (trail : Trail) (node : Node) : Bool :=
  node.role = some .identifier &&
    match trail with
    | [] => false
    | step :: _ =>
        step.parent.kind = .creation && step.before.all fun child => child.role ≠ some .identifier

theorem noteConstructed_of_type (walk : Walk) (type : parent.childAs .identifier = some node) :
    (walk.noteConstructed parent).symbols[node.id]? =
      if node.kind = .memberSelect then some (constructedSymbol node.text)
      else walk.symbols[node.id]? := by
  rw [noteConstructed, type]
  dsimp only
  split <;> simp [note, constructedSymbol]

theorem noteConstructed_of_others (walk : Walk) {id : Nat}
    (apart : ∀ type, parent.childAs .identifier = some type → type.id ≠ id) :
    (walk.noteConstructed parent).symbols[id]? = walk.symbols[id]? := by
  rw [noteConstructed]
  split
  · next type found =>
      split
      · simp [note, Std.TreeMap.getElem?_insert, apart type found]
      · rfl
  · rfl

/-- Where ids are distinct, the type of a construction is its first child in that role. -/
theorem childAs_identifier_iff (distinct : parent.HasDistinctIds)
    (children : parent.children = before ++ node :: after) :
    parent.childAs .identifier = some node ↔
      node.role = some .identifier ∧
        before.all (fun child => child.role ≠ some .identifier) = true := by
  rw [Node.childAs, children, List.find?_append]
  constructor
  · intro found
    have noEarlier : before.find? (fun child => child.role = some .identifier) = none := by
      by_contra first
      obtain ⟨type, first⟩ := Option.ne_none_iff_exists'.mp first
      rw [first] at found
      obtain rfl := Option.some.inj found
      refine ((distinct.split children).2 type type.mem_preorder_self).1 (List.mem_map_of_mem ?_)
      exact Node.mem_preorderAll.mpr ⟨type, List.mem_of_find?_eq_some first, type.mem_preorder_self⟩
    rw [noEarlier, Option.none_or] at found
    have role := List.find?_some found
    exact ⟨by simpa using role, by simpa using noEarlier⟩
  · rintro ⟨role, earlier⟩
    have noEarlier : before.find? (fun child => child.role = some .identifier) = none := by
      simpa using earlier
    simp [noEarlier, role]

/-- Of a node itself only a dotted name is noted before the walk comes to it, as the type of
the construction that it is a part of. -/
theorem walkAt_symbol (known : Known) (distinct : root.HasDistinctIds)
    (leads : Leads root trail node) :
    (walkAt known trail).symbols[node.id]? =
      if node.kind = .memberSelect ∧ isConstructed trail node then
        some (constructedSymbol node.text)
      else none := by
  cases leads with
  | root =>
      have alone : isConstructed [] root = false := Bool.and_false _
      rw [alone, if_neg (by simp)]
      exact Std.TreeMap.getElem?_emptyc
  | @child trail parent child before after above children notName =>
      have member : node ∈ parent.children := by simp [children]
      have distinctParent := distinct.of_mem above.mem_preorder
      have own := node.mem_preorder_self
      have inside := Node.mem_preorderAll.mpr ⟨node, member, own⟩
      have foreign : parent.id ≠ node.id := fun same =>
        distinctParent.notBelow (same ▸ List.mem_map_of_mem inside)
      have unnoted := walkAt_unnoted known distinct above inside
      have visited := visitChildren_keeps known parent before
        (enter known (walkAt known trail) parent)
      rw [walkAt, visited.symbols node.id ((distinctParent.split children).2 node own).1, enter,
        isConstructed]
      cases kind : parent.kind with
      | creation =>
          have first := childAs_identifier_iff distinctParent children
          by_cases type : parent.childAs .identifier = some node
          · obtain ⟨role, earlier⟩ := first.mp type
            rw [noteConstructed_of_type _ type, unnoted, earlier]
            simp [role]
          · rw [not_congr first, not_and] at type
            rw [noteConstructed_of_others, unnoted, if_neg]
            · simpa using fun _ => type
            · intro other found same
              refine (not_congr first).mpr (not_and.mpr type) ?_
              have memberOther : other ∈ parent.children := List.mem_of_find?_eq_some found
              rw [found, List.inj_on_of_nodup_map distinctParent
                (Node.mem_preorder_of_mem_children memberOther other.mem_preorder_self)
                (Node.mem_preorder_of_mem_children member own) same]
      | classDecl name flavor =>
          dsimp only
          split <;> simpa [enterClass] using unnoted
      | parameterizedType | invocation =>
          simpa [note, Std.TreeMap.getElem?_insert, foreign] using unnoted
      | _ =>
          dsimp only
          split <;> simpa [openFrame] using unnoted

theorem noteScope_symbols (known : Known) (walk : Walk) (id : Nat) :
    (walk.noteScope known id).symbols = walk.symbols := by
  simp only [noteScope, refresh]
  split <;> rfl

theorem noteScope_scopes (known : Known) (walk : Walk) (fresh : walk.Fresh known) (id : Nat) :
    ((walk.noteScope known id).scopes[id]?).map (·.scope) =
      some (known.scopeAt walk.place) := by
  simp [noteScope, refresh_scope fresh]

theorem resolveName_symbol (known : Known) {walk : Walk} {id : Nat}
    (unnoted : walk.symbols[id]? = none) (name : String) :
    (walk.resolveName known id name false).symbols[id]? = known.nameSymbol? walk.place name := by
  rw [resolveName, if_neg Bool.false_ne_true, noteScope_symbols]
  cases known.nameSymbol? walk.place name with
  | none => exact unnoted
  | some symbol => simp [note]

theorem resolveName_scope (known : Known) {walk : Walk} (fresh : walk.Fresh known) (id : Nat)
    (name : String) :
    ((walk.resolveName known id name false).scopes[id]?).map (·.scope) =
      some (known.scopeAt walk.place) := by
  rw [resolveName, if_neg Bool.false_ne_true]
  cases known.nameSymbol? walk.place name with
  | none => exact noteScope_scopes known walk fresh id
  | some symbol => exact noteScope_scopes known (walk.note id symbol) fresh id

/-- The symbol that is noted for a node at the end of a trail, if one is noted. -/
def symbolAt? (known : Known) (trail : Trail) (node : Node) : Option Symbol :=
  match node.kind with
  | .identifier name true => some (known.typeSymbol name)
  | .identifier name false => known.nameSymbol? (placeAt known trail) name
  | .parameterizedType => some (parameterizedSymbol known node.text)
  | .invocation select => some (callSymbol known (placeAt known trail) node select)
  | .memberSelect =>
      if isConstructed trail node then some (constructedSymbol node.text) else none
  | _ => none

/-- The scope that is noted for a node at the end of a trail, if one is noted. -/
def scopeAt? (known : Known) (trail : Trail) (node : Node) : Option Scope :=
  match node.kind with
  | .identifier _ false => some (known.scopeAt (placeAt known trail))
  | _ => none

/-- Of a node itself its visit notes what entering it notes. -/
theorem visit_own (known : Known) (distinct : node.HasDistinctIds)
    (noIdentifier : node.kind.isIdentifier = false) (walk : Walk) :
    (visit known walk node).symbols[node.id]? = (enter known walk node).symbols[node.id]? ∧
      (visit known walk node).scopes[node.id]? = walk.scopes[node.id]? := by
  have visited := visitChildren_keeps known node node.children (enter known walk node)
  have kept := visited.trans (leave_keeps known _ node _)
  rw [visit_eq known walk noIdentifier, kept.symbols node.id distinct.notBelow,
    kept.scopes node.id distinct.notBelow, enter_scopes]
  exact ⟨rfl, rfl⟩

/-- The symbol of a node is the one that is noted at the end of its trail. -/
theorem visit_symbol (known : Known) (distinct : root.HasDistinctIds)
    (leads : Leads root trail node) (opened : trail.IsOpen) :
    (visit known {} root).symbols[node.id]? = symbolAt? known trail node := by
  have distinctNode := distinct.of_mem leads.mem_preorder
  have before := walkAt_symbol known distinct leads
  rw [(visit_untouched known distinct leads opened node.mem_preorder_self).1]
  cases isIdentifier : node.kind.isIdentifier with
  | true =>
      obtain ⟨name, typePosition, kind⟩ := Kind.exists_of_isIdentifier isIdentifier
      have unnoted : (walkAt known trail).symbols[node.id]? = none := by simp [before, kind]
      rw [visit_of_identifier known _ kind, symbolAt?, kind]
      cases typePosition with
      | true => simp [resolveName, note]
      | false => rw [resolveName_symbol known unnoted, walkAt_place]
  | false =>
      rw [(visit_own known distinctNode isIdentifier _).1, enter, symbolAt?]
      cases kind : node.kind with
      | identifier name typePosition =>
          rw [kind] at isIdentifier
          cases isIdentifier
      | creation =>
          dsimp only
          rw [noteConstructed_of_others, before, if_neg (by simp [kind])]
          intro type found same
          have member : type ∈ node.children := List.mem_of_find?_eq_some found
          refine distinctNode.notBelow (same ▸ List.mem_map_of_mem ?_)
          exact Node.mem_preorderAll.mpr ⟨type, member, type.mem_preorder_self⟩
      | memberSelect => simpa [kind, opensFrame] using before
      | parameterizedType => simp [note]
      | invocation select => simp [note, walkAt_place]
      | _ =>
          dsimp only
          split <;> simpa [kind, enterClass, openFrame] using before

/-- The scope of a node is the one that is noted at the end of its trail. -/
theorem visit_scope (known : Known) (distinct : root.HasDistinctIds)
    (leads : Leads root trail node) (opened : trail.IsOpen) :
    ((visit known {} root).scopes[node.id]?).map (·.scope) = scopeAt? known trail node := by
  have before := walkAt_unscoped known distinct leads node.mem_preorder_self
  rw [(visit_untouched known distinct leads opened node.mem_preorder_self).2]
  cases isIdentifier : node.kind.isIdentifier with
  | true =>
      obtain ⟨name, typePosition, kind⟩ := Kind.exists_of_isIdentifier isIdentifier
      rw [visit_of_identifier known _ kind, scopeAt?, kind]
      cases typePosition with
      | true => simp [resolveName, note, before]
      | false => rw [resolveName_scope known (walkAt_fresh known trail), walkAt_place]
  | false =>
      rw [(visit_own known (distinct.of_mem leads.mem_preorder) isIdentifier _).2, before, scopeAt?]
      cases kind : node.kind with
      | identifier name typePosition =>
          rw [kind] at isIdentifier
          cases isIdentifier
      | _ => rfl

section CallName

variable {call name inner : Node} (known : Known) (distinct : root.HasDistinctIds)
  (leads : Leads root trail call) (opened : trail.IsOpen) (member : name ∈ call.children)
  (named : call.isCallName name = true)

include distinct leads opened member named

/-- Of the name of a call, and of what is below it, only what the call notes is noted. -/
theorem visit_callName (below : inner ∈ name.preorder) :
    ∃ before after, call.children = before ++ name :: after ∧
      (visit known {} root).symbols[inner.id]? =
        ((visitChildren known call (enter known (walkAt known trail) call) before).note name.id
          { kind := .method, name := calledMethod call }).symbols[inner.id]? ∧
      (visit known {} root).scopes[inner.id]? = none := by
  obtain ⟨before, after, children⟩ := List.append_of_mem member
  have isCall : call.kind.isCall = true := by
    rw [Node.isCallName, Bool.and_eq_true] at named
    exact named.1
  have noIdentifier : call.kind.isIdentifier = false := by
    cases isIdentifier : call.kind.isIdentifier with
    | true => cases isCall.symm.trans (Kind.isCall_of_isIdentifier isIdentifier)
    | false => rfl
  have distinctCall := distinct.of_mem leads.mem_preorder
  obtain ⟨notBefore, notAfter⟩ := (distinctCall.split children).2 inner below
  have within := Node.mem_preorder_of_mem_children member below
  have untouched := visit_untouched known distinct leads opened within
  have early := visitChildren_keeps known call before (enter known (walkAt known trail) call)
  have late (walk : Walk) := (visitChildren_keeps known call after walk).trans
    (leave_keeps known _ call _)
  rw [visit_eq known _ noIdentifier, children, visitChildren_append, visitChildren_cons,
    visitChild, if_pos named, (late _).symbols inner.id notAfter,
    (late _).scopes inner.id notAfter] at untouched
  refine ⟨before, after, children, untouched.1, untouched.2.trans ?_⟩
  rw [note, early.scopes inner.id notBefore, enter_scopes]
  exact walkAt_unscoped known distinct leads within

/-- The name of a call has the symbol of a method, and no scope. -/
theorem visit_of_callName :
    (visit known {} root).symbols[name.id]? =
        some { kind := .method, name := calledMethod call } ∧
      (visit known {} root).scopes[name.id]? = none := by
  obtain ⟨before, after, -, symbol, scope⟩ :=
    visit_callName known distinct leads opened member named name.mem_preorder_self
  exact ⟨by simp [symbol, note], scope⟩

/-- Nothing is noted below the name of a call. -/
theorem visit_below_callName (below : inner ∈ Node.preorder.preorderAll name.children) :
    (visit known {} root).symbols[inner.id]? = none ∧
      (visit known {} root).scopes[inner.id]? = none := by
  have inside : inner ∈ name.preorder := by
    rw [Node.preorder_eq]
    exact List.mem_cons_of_mem _ below
  obtain ⟨before, after, children, symbol, scope⟩ :=
    visit_callName known distinct leads opened member named inside
  have distinctCall := distinct.of_mem leads.mem_preorder
  obtain ⟨distinctName, apart⟩ := distinctCall.split children
  have foreign : name.id ≠ inner.id := fun same =>
    distinctName.notBelow (same ▸ List.mem_map_of_mem below)
  have entered := enter_keeps known (walkAt known trail) call
  have early := visitChildren_keeps known call before (enter known (walkAt known trail) call)
  refine ⟨?_, scope⟩
  calc (visit known {} root).symbols[inner.id]?
    _ = (visitChildren known call (enter known (walkAt known trail) call) before).symbols[
        inner.id]? := by
      rw [symbol, note, Std.TreeMap.getElem?_insert, if_neg (by simpa using foreign)]
    _ = (enter known (walkAt known trail) call).symbols[inner.id]? :=
      early.symbols inner.id (apart inner inside).1
    _ = (walkAt known trail).symbols[inner.id]? :=
      entered.symbols inner.id (not_mem_enteredIds distinctCall member below)
    _ = none :=
      walkAt_unnoted known distinct leads (Node.mem_preorderAll.mpr ⟨name, member, inside⟩)

end CallName

/-- Nothing is noted below an identifier. -/
theorem visit_below_identifier (known : Known) (distinct : root.HasDistinctIds)
    (leads : Leads root trail node) (opened : trail.IsOpen)
    (isIdentifier : node.kind.isIdentifier = true) {inner : Node}
    (below : inner ∈ Node.preorder.preorderAll node.children) :
    (visit known {} root).symbols[inner.id]? = none ∧
      (visit known {} root).scopes[inner.id]? = none := by
  have inside : inner ∈ node.preorder := by
    rw [Node.preorder_eq]
    exact List.mem_cons_of_mem _ below
  have foreign : inner.id ∉ [node.id] := fun same =>
    (distinct.of_mem leads.mem_preorder).notBelow
      (List.mem_singleton.mp same ▸ List.mem_map_of_mem below)
  obtain ⟨name, typePosition, kind⟩ := Kind.exists_of_isIdentifier isIdentifier
  have kept := resolveName_keeps known (walkAt known trail) name typePosition
    (List.mem_singleton_self node.id)
  obtain ⟨symbol, scope⟩ := visit_untouched known distinct leads opened inside
  rw [symbol, scope, visit_of_identifier known _ kind, kept.symbols inner.id foreign,
    kept.scopes inner.id foreign]
  exact ⟨walkAt_unnoted known distinct leads below, walkAt_unscoped known distinct leads inside⟩

/-- Only identifiers that the walk comes to have a scope. -/
theorem exists_leads_of_scope (known : Known) (distinct : root.HasDistinctIds)
    (below : node ∈ root.preorder)
    (noted : ((visit known {} root).scopes[node.id]?).isSome = true) :
    ∃ trail name, Leads root trail node ∧ trail.IsOpen ∧ node.kind = .identifier name false := by
  have start : Trail.IsOpen [] := fun _ inside => nomatch inside
  rcases Leads.root.exists_open_of_mem start below with
    ⟨trail, leads, opened⟩ |
      ⟨trail, outer, leads, opened, ⟨name, member, named, within⟩ | ⟨isIdentifier, within⟩⟩
  · have scope := visit_scope known distinct leads opened
    rw [← Option.isSome_map (f := fun snapshot : Snapshot => snapshot.scope), scope,
      scopeAt?] at noted
    split at noted
    · next name kind => exact ⟨trail, name, leads, opened, kind⟩
    · cases noted
  · obtain ⟨-, -, -, -, unscoped⟩ := visit_callName known distinct leads opened member named within
    rw [unscoped] at noted
    cases noted
  · rw [(visit_below_identifier known distinct leads opened isIdentifier within).2] at noted
    cases noted

/-- The symbol of an identifier is that of its name at the end of its trail. -/
theorem visit_symbol_of_identifier (known : Known) (regular : root.AllRegular)
    (distinct : root.HasDistinctIds) (leads : Leads root trail node) {name : String}
    (kind : node.kind = .identifier name false) :
    (visit known {} root).symbols[node.id]? = known.nameSymbol? (placeAt known trail) name := by
  rw [visit_symbol known distinct leads (leads.isOpen regular), symbolAt?, kind]

/-- The scope of an identifier shows the names that are visible at the end of its trail. -/
theorem visit_scope_of_identifier (known : Known) (regular : root.AllRegular)
    (distinct : root.HasDistinctIds) (leads : Leads root trail node) {name : String}
    (kind : node.kind = .identifier name false) :
    ((visit known {} root).scopes[node.id]?).map (·.scope) =
      some (known.scopeAt (placeAt known trail)) := by
  rw [visit_scope known distinct leads (leads.isOpen regular), scopeAt?, kind]

/-- The symbol of a call is the one at the end of its trail. -/
theorem visit_symbol_of_call (known : Known) (regular : root.AllRegular)
    (distinct : root.HasDistinctIds) (leads : Leads root trail node) {select : String}
    (kind : node.kind = .invocation select) :
    (visit known {} root).symbols[node.id]? =
      some (callSymbol known (placeAt known trail) node select) := by
  rw [visit_symbol known distinct leads (leads.isOpen regular), symbolAt?, kind]

end Walk

end JavaStructure.Resolution
