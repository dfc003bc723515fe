/-
# Frames with another content

What is declared in a frame is not visible behind it, and what stands in it is no part of an
expression outside. So the nodes outside of a frame are resolved in the same way whatever the
frame holds, as long as it declares no class and, for a method, returns the same type.
-/

import JavaStructure.Proofs.Resolution.Faithful
import JavaStructure.Proofs.Resolution.Notes
import JavaStructure.Resolution

namespace JavaStructure.Resolution

open Syntax (Node Kind Role Step Trail Leads)
open Syntax.Node.preorder (preorderAll)
open Names (Environment Qualifier)
open Walk (opensFrame)

/-- The tree in which the construct that has an id and opens a frame has other children. -/
def refilled (target : Nat) (others : List Node) : Node → Node
  | ⟨id, kind, role, text, line, children⟩ =>
      ⟨id, kind, role, text, line,
        if id = target ∧ opensFrame kind = true then others
        else refilledAll target others children⟩
where
  /-- The trees of a list in which a frame has other children. -/
  refilledAll (target : Nat) (others : List Node) : List Node → List Node
    | [] => []
    | child :: rest => refilled target others child :: refilledAll target others rest

/-- The children of a node are replaced. -/
def IsRefilled (target : Nat) (node : Node) : Prop :=
  node.id = target ∧ opensFrame node.kind = true

instance (target : Nat) (node : Node) : Decidable (IsRefilled target node) :=
  inferInstanceAs (Decidable (_ ∧ _))

/-- No class with a name is declared in some trees. -/
def DeclareNoClass (nodes : List Node) : Prop :=
  ∀ node ∈ preorderAll nodes, ∀ name flavor, node.kind = .classDecl name flavor → name = ""

variable {target : Nat} {others : List Node} {known : Known} {place : Place}
variable {root node parent : Node} {trail : Trail}

theorem refilled_eq (target : Nat) (others : List Node) (node : Node) :
    refilled target others node =
      ⟨node.id, node.kind, node.role, node.text, node.line,
        if IsRefilled target node then others else node.children.map (refilled target others)⟩ := by
  have all (nodes : List Node) :
      refilled.refilledAll target others nodes = nodes.map (refilled target others) := by
    induction nodes with
    | nil => rfl
    | cons child rest ih => rw [refilled.refilledAll, ih, List.map_cons]
  obtain ⟨id, kind, role, text, line, children⟩ := node
  rw [refilled, all]
  rfl

@[simp]
theorem refilled_id (target : Nat) (others : List Node) (node : Node) :
    (refilled target others node).id = node.id := by
  rw [refilled_eq]

@[simp]
theorem refilled_kind (target : Nat) (others : List Node) (node : Node) :
    (refilled target others node).kind = node.kind := by
  rw [refilled_eq]

theorem refilled_children (isRefilled : IsRefilled target node) :
    (refilled target others node).children = others := by
  rw [refilled_eq, if_pos isRefilled]

theorem isUntyped_of_opensFrame {kind : Kind} (opens : opensFrame kind = true) :
    IsUntyped kind := by
  rintro known place ⟨id, shown, role, text, line, children⟩ rfl
  cases shown with
  | methodDecl _ | block | forLoop | enhancedFor | lambda | switch => rfl
  | other rule =>
      have rules : rule = "catch_clause" ∨ rule = "try_with_resources_statement" := by
        simpa [opensFrame] using opens
      rcases rules with rfl | rfl <;> rfl
  | _ => cases opens

/-- Only the children of a frame are replaced. -/
theorem refilled_isFaithful (target : Nat) (others : List Node) :
    IsFaithful (IsRefilled target) (refilled target others) where
  kind := refilled_kind target others
  role node := by rw [refilled_eq]
  text node := by rw [refilled_eq]
  children node kept := by rw [refilled_eq, if_neg kept]
  untyped _ isRefilled := isUntyped_of_opensFrame isRefilled.2

/-- What is read off a tree is the same, as long as nothing is read off what is replaced. -/
theorem filterMap_preorder_refilled {α : Type} {read : Node → Option α}
    (unreadOthers : ∀ inner ∈ preorderAll others, read inner = none)
    (unread : ∀ outer ∈ node.preorder, IsRefilled target outer →
      ∀ inner ∈ preorderAll outer.children, read inner = none)
    (same : ∀ inner ∈ node.preorder, read (refilled target others inner) = read inner) :
    (refilled target others node).preorder.filterMap read = node.preorder.filterMap read := by
  have nothing {nodes : List Node} (unread : ∀ inner ∈ preorderAll nodes, read inner = none) :
      nodes.flatMap (fun child => child.preorder.filterMap read) = [] := by
    rw [← List.filterMap_flatMap, ← Node.preorderAll_eq]
    exact List.filterMap_eq_nil_iff.mpr unread
  induction node using Node.inductionOnChildren with
  | step node ih =>
      rw [Node.filterMap_preorder, Node.filterMap_preorder, same node node.mem_preorder_self]
      by_cases isRefilled : IsRefilled target node
      · rw [refilled_children isRefilled, nothing unreadOthers,
          nothing (unread node node.mem_preorder_self isRefilled)]
      · rw [(refilled_isFaithful target others).children node isRefilled, List.flatMap_map]
        refine congrArg _ (List.flatMap_congr fun child member => ih child member ?_ ?_)
        · exact fun outer below => unread outer (Node.mem_preorder_of_mem_children member below)
        · exact fun inner below => same inner (Node.mem_preorder_of_mem_children member below)

/-- A frame of a unit is filled with other children, that declare no class either. What a method
returns stays as it is. -/
structure Refills (unit frame : Node) (others : List Node) : Prop where
  member : frame ∈ unit.preorder
  opens : opensFrame frame.kind = true
  noClass : DeclareNoClass frame.children
  noOtherClass : DeclareNoClass others
  returned : ∀ name, frame.kind = .methodDecl name →
    (others.find? fun child => child.role = some .returnType).map (·.text) =
      (frame.childAs .returnType).map (·.text)
  distinct : unit.HasDistinctIds
  distinctToo : (refilled frame.id others unit).HasDistinctIds

namespace Refills

variable {unit frame outer : Node} (refills : Refills unit frame others)

include refills

/-- Only the frame is filled. -/
theorem eq_frame (below : outer ∈ unit.preorder) (isRefilled : IsRefilled frame.id outer) :
    outer = frame :=
  List.inj_on_of_nodup_map refills.distinct below refills.member isRefilled.1

theorem className?_eq_none (names : Environment) {inner : Node}
    (inside : inner ∈ preorderAll frame.children ∨ inner ∈ preorderAll others) :
    className? names inner = none := by
  rw [className?]
  split
  · next name flavor kind =>
      obtain rfl : name = "" := inside.elim
        (fun inside => refills.noClass inner inside name flavor kind)
        (fun inside => refills.noOtherClass inner inside name flavor kind)
      rfl
  · rfl

theorem declaredIn_eq (names : Environment) :
    declaredIn names (refilled frame.id others unit) = declaredIn names unit := by
  rw [Resolution.declaredIn_eq, Resolution.declaredIn_eq, filterMap_preorder_refilled]
  · intro inner inside
    rw [nameRow?, refills.className?_eq_none names (.inr inside), Option.map_none]
  · intro outer below isRefilled inner inside
    rw [refills.eq_frame below isRefilled] at inside
    rw [nameRow?, refills.className?_eq_none names (.inl inside), Option.map_none]
  · exact fun inner _ => (refilled_isFaithful frame.id others).nameRow? names inner

/-- The members of a class are read off as before. -/
theorem addMember_eq (q : Qualifier) (info : ClassInfo) {member : Node}
    (below : member ∈ unit.preorder) :
    info.addMember q (refilled frame.id others member) = info.addMember q member := by
  have faithful := refilled_isFaithful frame.id others
  refine faithful.addMember q info (fun name kind => ?_) fun name kind => ?_
  · refine faithful.childText (fun isRefilled => ?_) .type
    rw [IsRefilled, kind] at isRefilled
    cases isRefilled.2
  · by_cases isRefilled : IsRefilled frame.id member
    · obtain rfl := refills.eq_frame below isRefilled
      rw [Node.childAs, refilled_children isRefilled]
      exact refills.returned name kind
    · exact faithful.childText isRefilled .returnType

theorem classesIn_eq (q : Qualifier) :
    classesIn q (refilled frame.id others unit) = classesIn q unit := by
  rw [Resolution.classesIn_eq, Resolution.classesIn_eq, filterMap_preorder_refilled]
  · intro inner inside
    rw [classRow?, refills.className?_eq_none q.names (.inr inside), Option.map_none]
  · intro outer below isRefilled inner inside
    rw [refills.eq_frame below isRefilled] at inside
    rw [classRow?, refills.className?_eq_none q.names (.inl inside), Option.map_none]
  · intro inner below
    refine (refilled_isFaithful frame.id others).classRow? q (fun name named isRefilled => ?_)
      fun member inside info => ?_
    · have opens := isRefilled.2
      rw [className?] at named
      split at named
      · next kind =>
          rw [kind] at opens
          cases opens
      · cases named
    · refine refills.addMember_eq q info (Node.mem_preorder_trans below ?_)
      exact Node.mem_preorder_of_mem_children inside member.mem_preorder_self

/-- The same is known in a unit if a frame in it holds something else. -/
theorem knownIn_eq (kept : ¬ IsRefilled frame.id unit) (context : List Node) :
    knownIn (refilled frame.id others unit) context = knownIn unit context := by
  simp [knownIn, Declarations.ofUnits, (refilled_isFaithful frame.id others).environment kept,
    refills.declaredIn_eq, refills.classesIn_eq]

end Refills

theorem below_refilled :
    below known place (refilled target others node) = below known place node := by
  rw [below, below, refilled_kind]

theorem behindAmong_refilled {children : List Node}
    (each : ∀ child ∈ children, ∀ place,
      behind known place (refilled target others child) = behind known place child)
    (place : Place) :
    behindAmong known (refilled target others parent) place
        (children.map (refilled target others)) =
      behindAmong known parent place children := by
  induction children generalizing place with
  | nil => simp [behindAmong]
  | cons child rest ih =>
      obtain ⟨own, later⟩ := List.forall_mem_cons.mp each
      rw [List.map_cons, behindAmong, behindAmong,
        (refilled_isFaithful target others).isCallName, own, ih later]

/-- The place behind a node does not depend on what its frames hold. -/
theorem behind_refilled (target : Nat) (others : List Node) (known : Known) (node : Node)
    (place : Place) :
    behind known place (refilled target others node) = behind known place node := by
  induction node using Node.inductionOnChildren generalizing place with
  | step node ih =>
      have faithful := refilled_isFaithful target others
      have sameKind := refilled_kind target others node
      cases isIdentifier : node.kind.isIdentifier with
      | true =>
          rw [behind_of_isIdentifier isIdentifier, behind_of_isIdentifier (by rwa [sameKind])]
      | false =>
          cases opens : opensFrame node.kind with
          | true => rw [behind_of_opensFrame opens, behind_of_opensFrame (by rwa [sameKind])]
          | false =>
              have kept : ¬ IsRefilled target node := by simp [IsRefilled, opens]
              have children (place : Place) :
                  behindAmong known (refilled target others node) place
                      (refilled target others node).children =
                    behindAmong known node place node.children := by
                rw [faithful.children node kept]
                exact behindAmong_refilled ih place
              cases shape node with
              | identifier true =>
                  rw [isIdentifier] at true
                  cases true
              | frame true =>
                  rw [opens] at true
                  cases true
              | plain _ noClass noVariable _ behind _ =>
                  rw [behind, ← children, behind_of_plain] <;> rwa [sameKind]
              | «variable» kind =>
                  rw [behind_of_variable kind, behind_of_variable (sameKind.trans kind), children,
                    localsOf, localsOf, faithful.role, faithful.name?,
                    faithful.declaredType known _ kept]
              | classDecl kind =>
                  rw [behind_of_classDecl kind, behind_of_classDecl (sameKind.trans kind),
                    below_refilled, children]

/-- A step in a tree in which a frame has other children. -/
def refilledStep (target : Nat) (others : List Node) (step : Step) : Step :=
  ⟨refilled target others step.parent, step.before.map (refilled target others)⟩

theorem placeAt_refilled (target : Nat) (others : List Node) (known : Known) (trail : Trail) :
    placeAt known (trail.map (refilledStep target others)) = placeAt known trail := by
  induction trail with
  | nil => rfl
  | cons step outer ih =>
      rw [List.map_cons, placeAt, placeAt, ih]
      simp only [refilledStep, below_refilled]
      exact behindAmong_refilled (fun child _ => behind_refilled target others known child) _

/-- A trail that leads past the frame leads to the same node. -/
theorem leads_refilled (others : List Node) (leads : Leads root trail node)
    (past : ∀ step ∈ trail, ¬ IsRefilled target step.parent) :
    Leads (refilled target others root) (trail.map (refilledStep target others))
      (refilled target others node) := by
  have faithful := refilled_isFaithful target others
  induction leads with
  | root => exact .root
  | @child trail parent child before after above children notName ih =>
      obtain ⟨kept, pastAbove⟩ := List.forall_mem_cons.mp past
      have childrenToo : (refilled target others parent).children =
          before.map (refilled target others) ++
            refilled target others child :: after.map (refilled target others) := by
        rw [faithful.children parent kept, children, List.map_append, List.map_cons]
      exact .child (ih pastAbove) childrenToo ((faithful.isCallName parent child).trans notName)

theorem isOpen_refilled (opened : trail.IsOpen) :
    Trail.IsOpen (trail.map (refilledStep target others)) := by
  intro step inside
  obtain ⟨original, member, rfl⟩ := List.mem_map.mp inside
  rw [refilledStep, refilled_kind]
  exact opened original member

theorem isConstructed_refilled (trail : Trail) (node : Node) :
    Walk.isConstructed (trail.map (refilledStep target others)) (refilled target others node) =
      Walk.isConstructed trail node := by
  have faithful := refilled_isFaithful target others
  cases trail with
  | nil => rw [List.map_nil, Walk.isConstructed, Walk.isConstructed, faithful.role]
  | cons step outer =>
      rw [List.map_cons, Walk.isConstructed, Walk.isConstructed, faithful.role]
      simp only [refilledStep, refilled_kind, List.all_map, Function.comp_def, faithful.role]

theorem symbolAt?_refilled (target : Nat) (others : List Node) (known : Known) (trail : Trail)
    (node : Node) :
    Walk.symbolAt? known (trail.map (refilledStep target others)) (refilled target others node) =
      Walk.symbolAt? known trail node := by
  have faithful := refilled_isFaithful target others
  rw [Walk.symbolAt?, Walk.symbolAt?, refilled_kind, faithful.text, placeAt_refilled,
    isConstructed_refilled]
  cases kind : node.kind with
  | identifier name typePosition => cases typePosition <;> rfl
  | invocation select =>
      have kept : ¬ IsRefilled target node := by simp [IsRefilled, kind, opensFrame]
      simp only [faithful.callSymbol known _ kept]
  | _ => rfl

theorem scopeAt?_refilled (target : Nat) (others : List Node) (known : Known) (trail : Trail)
    (node : Node) :
    Walk.scopeAt? known (trail.map (refilledStep target others)) (refilled target others node) =
      Walk.scopeAt? known trail node := by
  rw [Walk.scopeAt?, Walk.scopeAt?, refilled_kind, placeAt_refilled]

/-- A child of a node that is not filled is changed in its place. -/
theorem mem_children_refilled (others : List Node) {child : Node}
    (kept : ¬ IsRefilled target parent)
    (member : child ∈ parent.children) :
    refilled target others child ∈ (refilled target others parent).children := by
  rw [(refilled_isFaithful target others).children parent kept]
  exact List.mem_map_of_mem member

/-- A node outside of the frame is still there. -/
theorem mem_preorder_refilled (below : node ∈ root.preorder)
    (outside : ∀ outer ∈ root.preorder, IsRefilled target outer →
      node ∉ preorderAll outer.children) :
    refilled target others node ∈ (refilled target others root).preorder := by
  induction root using Node.inductionOnChildren with
  | step root ih =>
      rw [Node.preorder_eq] at below
      rcases List.mem_cons.mp below with rfl | deeper
      · exact Node.mem_preorder_self _
      · have kept : ¬ IsRefilled target root := fun isRefilled =>
          outside root root.mem_preorder_self isRefilled deeper
        obtain ⟨child, member, within⟩ := Node.mem_preorderAll.mp deeper
        exact Node.mem_preorder_of_mem_children (mem_children_refilled others kept member)
          (ih child member within fun outer belowChild =>
            outside outer (Node.mem_preorder_of_mem_children member belowChild))

/-- Nothing is noted of a frame itself. -/
theorem symbolAt?_of_opensFrame (known : Known) (trail : Trail)
    (opens : opensFrame node.kind = true) :
    Walk.symbolAt? known trail node = none ∧ Walk.scopeAt? known trail node = none := by
  rw [Walk.symbolAt?, Walk.scopeAt?]
  cases kind : node.kind with
  | identifier | parameterizedType | invocation | memberSelect =>
      rw [kind] at opens
      cases opens
  | _ => exact ⟨rfl, rfl⟩

namespace Refills

variable {unit frame : Node} (refills : Refills unit frame others)

include refills

/-- No node outside of the frame is below what is filled. -/
theorem not_isRefilled {outer : Node} (outside : node ∉ preorderAll frame.children)
    (member : outer ∈ unit.preorder) (below : node ∈ preorderAll outer.children) :
    ¬ IsRefilled frame.id outer := by
  intro isRefilled
  rw [refills.eq_frame member isRefilled] at below
  exact outside below

theorem mem_preorderAll {outer : Node} (outside : node ∉ preorderAll frame.children)
    (member : outer ∈ unit.preorder) (below : node ∈ preorderAll outer.children) :
    refilled frame.id others node ∈ preorderAll (refilled frame.id others outer).children := by
  have kept := refills.not_isRefilled outside member below
  obtain ⟨child, inside, within⟩ := Node.mem_preorderAll.mp below
  refine Node.mem_preorderAll.mpr ⟨_, mem_children_refilled others kept inside, ?_⟩
  refine mem_preorder_refilled within fun inner belowChild isRefilled => ?_
  have innerBelow := Node.mem_preorder_trans member
    (Node.mem_preorder_of_mem_children inside belowChild)
  rw [refills.eq_frame innerBelow isRefilled]
  exact outside

/-- A trail that leads to a node outside of the frame, or above one, leads to the same node. -/
theorem leads {outer : Node} (outside : node ∉ preorderAll frame.children)
    (leads : Leads unit trail outer) (inside : node ∈ outer.preorder) :
    Leads (refilled frame.id others unit) (trail.map (refilledStep frame.id others))
      (refilled frame.id others outer) := by
  refine leads_refilled others leads fun step member => ?_
  obtain ⟨within, deeper⟩ := leads.mem_of_mem_trail member
  exact refills.not_isRefilled outside within (deeper node inside)

end Refills

/-- Two walks have noted the same of a node, numbers of snapshots aside. -/
structure Walk.NotesAlike (walk other : Walk) (id : Nat) : Prop where
  symbol : other.symbols[id]? = walk.symbols[id]?
  scope : (other.scopes[id]?).map (·.scope) = (walk.scopes[id]?).map (·.scope)

namespace Refills

section Visits

variable {unit frame : Node} (refills : Refills unit frame others) (known : Known)
variable (outside : node ∉ preorderAll frame.children) {outer name : Node}
variable (leads : Leads unit trail outer) (opened : trail.IsOpen)

include refills outside opened

theorem notesAlike_of_leads (leads : Leads unit trail node) :
    (Walk.visit known {} unit).NotesAlike
      (Walk.visit known {} (refilled frame.id others unit)) node.id := by
  have leadsToo := refills.leads outside leads node.mem_preorder_self
  have symbol := Walk.visit_symbol known refills.distinctToo leadsToo (isOpen_refilled opened)
  have scope := Walk.visit_scope known refills.distinctToo leadsToo (isOpen_refilled opened)
  rw [refilled_id, symbolAt?_refilled] at symbol
  rw [refilled_id, scopeAt?_refilled] at scope
  exact ⟨symbol.trans (Walk.visit_symbol known refills.distinct leads opened).symm,
    scope.trans (Walk.visit_scope known refills.distinct leads opened).symm⟩

include leads

theorem notesAlike_of_callName (member : name ∈ outer.children)
    (named : outer.isCallName name = true) (within : node ∈ name.preorder) :
    (Walk.visit known {} unit).NotesAlike
      (Walk.visit known {} (refilled frame.id others unit)) node.id := by
  have faithful := refilled_isFaithful frame.id others
  have inside := Node.mem_preorderAll.mpr ⟨name, member, within⟩
  have kept := refills.not_isRefilled outside leads.mem_preorder inside
  have leadsToo :=
    refills.leads outside leads (Node.mem_preorder_of_mem_children member within)
  have memberToo := mem_children_refilled others kept member
  have namedToo := (faithful.isCallName outer name).trans named
  rw [Node.preorder_eq] at within
  rcases List.mem_cons.mp within with rfl | deeper
  · obtain ⟨symbol, scope⟩ :=
      Walk.visit_of_callName known refills.distinct leads opened member named
    obtain ⟨symbolToo, scopeToo⟩ := Walk.visit_of_callName known refills.distinctToo leadsToo
      (isOpen_refilled opened) memberToo namedToo
    rw [refilled_id] at symbolToo scopeToo
    rw [faithful.calledMethod kept] at symbolToo
    exact ⟨symbolToo.trans symbol.symm, by rw [scopeToo, scope]⟩
  · have nameBelow := Node.mem_preorder_trans leads.mem_preorder
      (Node.mem_preorder_of_mem_children member name.mem_preorder_self)
    obtain ⟨symbol, scope⟩ :=
      Walk.visit_below_callName known refills.distinct leads opened member named deeper
    obtain ⟨symbolToo, scopeToo⟩ := Walk.visit_below_callName known refills.distinctToo leadsToo
      (isOpen_refilled opened) memberToo namedToo
      (refills.mem_preorderAll outside nameBelow deeper)
    rw [refilled_id] at symbolToo scopeToo
    exact ⟨symbolToo.trans symbol.symm, by rw [scopeToo, scope]⟩

theorem notesAlike_of_identifier (isIdentifier : outer.kind.isIdentifier = true)
    (within : node ∈ preorderAll outer.children) :
    (Walk.visit known {} unit).NotesAlike
      (Walk.visit known {} (refilled frame.id others unit)) node.id := by
  have inside : node ∈ outer.preorder := by
    rw [Node.preorder_eq]
    exact List.mem_cons_of_mem _ within
  have leadsToo := refills.leads outside leads inside
  have isIdentifierToo := (congrArg Kind.isIdentifier (refilled_kind frame.id others outer)).trans
    isIdentifier
  obtain ⟨symbol, scope⟩ :=
    Walk.visit_below_identifier known refills.distinct leads opened isIdentifier within
  obtain ⟨symbolToo, scopeToo⟩ := Walk.visit_below_identifier known refills.distinctToo leadsToo
    (isOpen_refilled opened) isIdentifierToo
    (refills.mem_preorderAll outside leads.mem_preorder within)
  rw [refilled_id] at symbolToo scopeToo
  exact ⟨symbolToo.trans symbol.symm, by rw [scopeToo, scope]⟩

end Visits

variable {unit frame : Node} (refills : Refills unit frame others)

include refills

/-- The walk notes the same of the nodes outside of the frame. -/
theorem notesAlike (known : Known) (below : node ∈ unit.preorder)
    (outside : node ∉ preorderAll frame.children) :
    (Walk.visit known {} unit).NotesAlike
      (Walk.visit known {} (refilled frame.id others unit)) node.id := by
  have start : Trail.IsOpen [] := fun _ inside => nomatch inside
  rcases Leads.root.exists_open_of_mem start below with
    ⟨trail, leads, opened⟩ |
      ⟨trail, outer, leads, opened, ⟨name, member, named, within⟩ | ⟨isIdentifier, within⟩⟩
  · exact refills.notesAlike_of_leads known outside opened leads
  · exact refills.notesAlike_of_callName known outside leads opened member named within
  · exact refills.notesAlike_of_identifier known outside leads opened isIdentifier within

/-- The nodes outside of the frame have the same symbols and scopes. -/
theorem toResolver_eq (lineCount : Nat) (context : List Node) (below : node ∈ unit.preorder)
    (outside : node ∉ preorderAll frame.children) :
    let resolver := (ofUnit unit lineCount context).toResolver
    let refilledResolver :=
      (ofUnit (refilled frame.id others unit) lineCount context).toResolver
    refilledResolver.symbol node = resolver.symbol node ∧
      refilledResolver.scope node = resolver.scope node := by
  let known := knownIn unit context
  let knownToo := knownIn (refilled frame.id others unit) context
  have noted := refills.notesAlike knownToo below outside
  by_cases isRoot : IsRefilled frame.id unit
  · -- then the unit itself is the only node outside, and nothing is noted of a frame
    obtain rfl := refills.eq_frame unit.mem_preorder_self isRoot
    rw [Node.preorder_eq] at below
    obtain rfl := (List.mem_cons.mp below).resolve_right outside
    have start : Trail.IsOpen [] := fun _ inside => nomatch inside
    have symbol (known : Known) := Walk.visit_symbol known refills.distinct .root start
    have scope (known : Known) := Walk.visit_scope known refills.distinct .root start
    have unnoted (known : Known) := symbolAt?_of_opensFrame known [] isRoot.2
    refine ⟨noted.symbol.trans ?_, noted.scope.trans ?_⟩
    · exact ((symbol knownToo).trans (unnoted knownToo).1).trans
        ((symbol known).trans (unnoted known).1).symm
    · exact ((scope knownToo).trans (unnoted knownToo).2).trans
        ((scope known).trans (unnoted known).2).symm
  · rw [show knownToo = known from refills.knownIn_eq isRoot context] at noted
    refine ⟨?_, ?_⟩
    · simpa [toResolver, ofUnit, refills.knownIn_eq isRoot] using noted.symbol
    · simpa [toResolver, ofUnit, refills.knownIn_eq isRoot] using noted.scope

end Refills

end JavaStructure.Resolution
