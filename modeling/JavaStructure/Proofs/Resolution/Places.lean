/-
# Visible declarations

Which local declarations are visible at a node is read off the way that leads to it: those
that earlier children left behind, the nearest first, from the outermost construct that
opens a frame on. `behind` gives the place after a node without walking it, and `placeAt`
the place that a trail leads to. The place at the end of a trail shows the classes around
it and the visible declarations, each with the type that it has where it stands.
-/

import JavaStructure.Proofs.Syntax.Trails
import JavaStructure.Resolution.Walk

namespace JavaStructure.Resolution

open Syntax (Node Kind Role Step Trail Leads)
open Names (Environment)
open Walk (opensFrame declaredKind)

variable {known : Known} {place : Place} {node parent : Node} {trail outer : Trail}

namespace Place

/-- Declare some locals in the innermost frame, the latest first. -/
def declare (place : Place) (declared : List Local) : Place :=
  match place.frames with
  | [] => place
  | frame :: outer => { place with frames := (declared ++ frame) :: outer }

@[simp]
theorem declare_nil (place : Place) : place.declare [] = place := by
  obtain ⟨classes, frames⟩ := place
  cases frames <;> rfl

theorem declare_declare (place : Place) (first second : List Local) :
    (place.declare first).declare second = place.declare (second ++ first) := by
  obtain ⟨classes, frames⟩ := place
  cases frames <;> simp [declare]

@[simp]
theorem classes_declare (place : Place) (declared : List Local) :
    (place.declare declared).classes = place.classes := by
  obtain ⟨classes, frames⟩ := place
  cases frames <;> rfl

theorem declare_withClasses (place : Place) (classes : List String) (declared : List Local) :
    { place with classes }.declare declared = { place.declare declared with classes } := by
  obtain ⟨around, frames⟩ := place
  cases frames <;> rfl

end Place

/-- A local variable or a parameter, with the trail that leads to it. -/
structure Site where
  trail : Trail
  node : Node

mutual

/-- The declarations that a node leaves in the frame around it, the latest first. -/
def left (trail : Trail) : Node → List Site
  | node@⟨_, kind, role, _, _, children⟩ =>
      match kind with
      | .identifier _ _ => []
      | .variableDecl _ =>
          if (declaredKind role).isSome then ⟨trail, node⟩ :: leftAmong trail node [] children
          else leftAmong trail node [] children
      | _ => if opensFrame kind then [] else leftAmong trail node [] children

/-- The declarations that some children leave, those before them given. -/
def leftAmong (trail : Trail) (parent : Node) (before : List Node) : List Node → List Site
  | [] => []
  | child :: rest =>
      leftAmong trail parent (before ++ [child]) rest ++
        if parent.isCallName child then [] else left (⟨parent, before⟩ :: trail) child

end

/-- Whether a trail leads into a frame. -/
def isFramed (trail : Trail) : Bool :=
  trail.any fun step => opensFrame step.parent.kind

/-- The declarations that are visible at the end of a trail, the nearest first. -/
def visible : Trail → List Site
  | [] => []
  | step :: outer =>
      (if isFramed (step :: outer) then leftAmong outer step.parent [] step.before else []) ++
        visible outer

/-- The qualified name of a named class. -/
def className? (names : Environment) (node : Node) : Option String :=
  match node.kind with
  | .classDecl name _ => if name.isEmpty then none else some (names.inPackage name)
  | _ => none

/-- The qualified names of the named classes that a trail leads into, innermost first. -/
def classesAround (names : Environment) (trail : Trail) : List String :=
  trail.filterMap fun step => className? names step.parent

/-- The place at which the children of a node stand. -/
def below (known : Known) (place : Place) (node : Node) : Place :=
  match node.kind with
  | .classDecl name _ =>
      if name.isEmpty then place
      else { place with classes := known.qualifier.names.inPackage name :: place.classes }
  | kind => if opensFrame kind then { place with frames := [] :: place.frames } else place

/-- What a variable declares at the place where its declaration ends. -/
def localsOf (known : Known) (place : Place) (node : Node) : List Local :=
  (declaredKind node.role).toList.map fun kind =>
    { name := node.name?.getD "", typeText := known.declaredType place node, kind }

mutual

/-- The place behind a node. -/
def behind (known : Known) (place : Place) : Node → Place
  | node@⟨_, kind, _, _, _, children⟩ =>
      match kind with
      | .identifier _ _ => place
      | .classDecl _ _ =>
          { behindAmong known node (below known place node) children with
            classes := place.classes }
      | .variableDecl _ =>
          let inside := behindAmong known node place children
          inside.declare (localsOf known inside node)
      | _ => if opensFrame kind then place else behindAmong known node place children

/-- The place behind some children. -/
def behindAmong (known : Known) (parent : Node) (place : Place) : List Node → Place
  | [] => place
  | child :: rest =>
      behindAmong known parent
        (if parent.isCallName child then place else behind known place child) rest

end

/-- The place that a trail leads to. -/
def placeAt (known : Known) : Trail → Place
  | [] => {}
  | step :: outer =>
      behindAmong known step.parent (below known (placeAt known outer) step.parent) step.before

namespace Site

/-- The name that is declared. -/
def name (site : Site) : String :=
  site.node.name?.getD ""

/-- Whether a parameter or a local variable is declared. -/
def kind (site : Site) : SymbolKind :=
  (declaredKind site.node.role).getD .localVariable

theorem kind_eq (site : Site) : site.kind = .localVariable ∨ site.kind = .parameter := by
  cases role : site.node.role with
  | none => exact .inl (by rw [kind, role]; rfl)
  | some own => cases own <;> simp [kind, role, declaredKind]

/-- The text of the declared type, inferred where the declaration ends if it is left open. -/
def typeText (known : Known) (site : Site) : String :=
  known.declaredType (placeAt known (⟨site.node, site.node.children⟩ :: site.trail)) site.node

/-- What is known of the declaration while it is visible. -/
def toLocal (known : Known) (site : Site) : Local :=
  { name := site.name, typeText := site.typeText known, kind := site.kind }

end Site

/-- How declarations pass a node: an identifier has none, a class changes the classes around,
a variable adds a declaration, a frame keeps its declarations to itself, and any other node
lets them through. -/
inductive Shape (node : Node) : Prop
  | identifier (isIdentifier : node.kind.isIdentifier = true)
  | classDecl {name flavor} (kind : node.kind = .classDecl name flavor)
  | variable {name} (kind : node.kind = .variableDecl name)
  | frame (opens : opensFrame node.kind = true)
  | plain (closed : opensFrame node.kind = false)
      (noClass : ∀ name flavor, node.kind ≠ .classDecl name flavor)
      (noVariable : ∀ name, node.kind ≠ .variableDecl name)
      (below : ∀ known place, below known place node = place)
      (behind : ∀ known place,
        behind known place node = behindAmong known node place node.children)
      (left : ∀ trail, left trail node = leftAmong trail node [] node.children)

/-- Every node has one of the shapes. -/
theorem shape (node : Node) : Shape node := by
  obtain ⟨id, kind, role, text, line, children⟩ := node
  cases kind with
  | identifier name typePosition => exact .identifier rfl
  | classDecl name flavor => exact .classDecl rfl
  | variableDecl name => exact .variable rfl
  | methodDecl _ | block | forLoop | enhancedFor | lambda | switch => exact .frame rfl
  | other rule =>
      cases opens : opensFrame (.other rule) with
      | true => exact .frame opens
      | false =>
          refine .plain opens (by simp) (by simp) (fun known place => ?_)
            (fun known place => ?_) fun trail => ?_
          · simp [below, opens]
          · simp [behind, opens]
          · simp [left, opens]
  | _ =>
      refine .plain rfl (by simp) (by simp) (fun known place => ?_) (fun known place => ?_)
        fun trail => ?_
      · simp [below, opensFrame]
      · simp [behind, opensFrame]
      · simp [left, opensFrame]

theorem behind_of_isIdentifier (isIdentifier : node.kind.isIdentifier = true) :
    behind known place node = place := by
  obtain ⟨id, kind, role, text, line, children⟩ := node
  obtain ⟨name, typePosition, rfl⟩ := Kind.exists_of_isIdentifier isIdentifier
  rw [behind]

theorem left_of_isIdentifier (isIdentifier : node.kind.isIdentifier = true) (trail : Trail) :
    left trail node = [] := by
  obtain ⟨id, kind, role, text, line, children⟩ := node
  obtain ⟨name, typePosition, rfl⟩ := Kind.exists_of_isIdentifier isIdentifier
  rw [left]

theorem behind_of_opensFrame (opens : opensFrame node.kind = true) :
    behind known place node = place := by
  obtain ⟨id, kind, role, text, line, children⟩ := node
  cases kind with
  | methodDecl _ | block | forLoop | enhancedFor | lambda | switch | other _ =>
      simp only [behind]
      rw [if_pos opens]
  | _ => cases opens

theorem left_of_opensFrame (opens : opensFrame node.kind = true) (trail : Trail) :
    left trail node = [] := by
  obtain ⟨id, kind, role, text, line, children⟩ := node
  cases kind with
  | methodDecl _ | block | forLoop | enhancedFor | lambda | switch | other _ =>
      simp only [left]
      rw [if_pos opens]
  | _ => cases opens

theorem below_of_opensFrame (opens : opensFrame node.kind = true) :
    below known place node = { place with frames := [] :: place.frames } := by
  obtain ⟨id, kind, role, text, line, children⟩ := node
  cases kind with
  | methodDecl _ | block | forLoop | enhancedFor | lambda | switch | other _ =>
      simp only [below]
      rw [if_pos opens]
  | _ => cases opens

theorem behind_of_classDecl {name : String} {flavor : Syntax.Flavor}
    (kind : node.kind = .classDecl name flavor) :
    behind known place node =
      { behindAmong known node (below known place node) node.children with
        classes := place.classes } := by
  obtain ⟨id, _, role, text, line, children⟩ := node
  subst kind
  rw [behind]

theorem left_of_classDecl {name : String} {flavor : Syntax.Flavor}
    (kind : node.kind = .classDecl name flavor) (trail : Trail) :
    left trail node = leftAmong trail node [] node.children := by
  obtain ⟨id, _, role, text, line, children⟩ := node
  subst kind
  simp [left, opensFrame]

/-- A class opens no frame. -/
theorem below_of_classDecl (known : Known) (place : Place) {name : String}
    {flavor : Syntax.Flavor} (kind : node.kind = .classDecl name flavor) :
    ∃ classes, below known place node = { place with classes } := by
  simp only [below, kind]
  split
  · exact ⟨place.classes, rfl⟩
  · exact ⟨_, rfl⟩

theorem behind_of_variable {name : String} (kind : node.kind = .variableDecl name) :
    behind known place node =
      (behindAmong known node place node.children).declare
        (localsOf known (behindAmong known node place node.children) node) := by
  obtain ⟨id, _, role, text, line, children⟩ := node
  subst kind
  rw [behind]

theorem left_of_variable {name : String} (kind : node.kind = .variableDecl name)
    (trail : Trail) :
    left trail node =
      (if (declaredKind node.role).isSome then [⟨trail, node⟩] else []) ++
        leftAmong trail node [] node.children := by
  obtain ⟨id, _, role, text, line, children⟩ := node
  subst kind
  rw [left]
  split <;> rfl

theorem below_of_variable {name : String} (kind : node.kind = .variableDecl name) :
    below known place node = place := by
  simp [below, kind, opensFrame]

theorem behind_of_plain (noIdentifier : node.kind.isIdentifier = false)
    (closed : opensFrame node.kind = false)
    (noClass : ∀ name flavor, node.kind ≠ .classDecl name flavor)
    (noVariable : ∀ name, node.kind ≠ .variableDecl name) :
    behind known place node = behindAmong known node place node.children := by
  cases shape node with
  | identifier isIdentifier => cases noIdentifier.symm.trans isIdentifier
  | classDecl kind => exact absurd kind (noClass _ _)
  | «variable» kind => exact absurd kind (noVariable _)
  | frame opens => cases closed.symm.trans opens
  | plain _ _ _ _ behind _ => exact behind known place

theorem behindAmong_eq_declare (known : Known) (parent : Node) {children : List Node}
    (each : ∀ child ∈ children, ∀ place, ∃ declared,
      behind known place child = place.declare declared) (place : Place) :
    ∃ declared, behindAmong known parent place children = place.declare declared := by
  induction children generalizing place with
  | nil => exact ⟨[], by simp [behindAmong]⟩
  | cons child rest ih =>
      rw [behindAmong]
      have ihRest := ih fun later member => each later (List.mem_cons_of_mem _ member)
      split
      · exact ihRest place
      · obtain ⟨first, declaresFirst⟩ := each child List.mem_cons_self place
        obtain ⟨others, declaresOthers⟩ := ihRest (behind known place child)
        exact ⟨others ++ first, by rw [declaresOthers, declaresFirst, Place.declare_declare]⟩

/-- A node changes nothing but the innermost frame around it. -/
theorem behind_eq_declare (known : Known) (node : Node) (place : Place) :
    ∃ declared, behind known place node = place.declare declared := by
  induction node using Node.inductionOnChildren generalizing place with
  | step node ih =>
      have children (place : Place) := behindAmong_eq_declare known node ih place
      cases shape node with
      | identifier isIdentifier =>
          exact ⟨[], by rw [behind_of_isIdentifier isIdentifier, Place.declare_nil]⟩
      | frame opens => exact ⟨[], by rw [behind_of_opensFrame opens, Place.declare_nil]⟩
      | plain _ _ _ _ behind _ =>
          rw [behind]
          exact children place
      | «variable» kind =>
          obtain ⟨declared, declares⟩ := children place
          rw [behind_of_variable kind, declares, Place.declare_declare]
          exact ⟨_, rfl⟩
      | classDecl kind =>
          obtain ⟨classes, within⟩ := below_of_classDecl known place kind
          obtain ⟨declared, declares⟩ := children (below known place node)
          refine ⟨declared, ?_⟩
          rw [behind_of_classDecl kind, declares, within, Place.declare_withClasses]
          exact (Place.declare_withClasses place place.classes declared).symm

/-- The children of a node change nothing but the innermost frame. -/
theorem behindAmong_eq (known : Known) (parent : Node) (place : Place) (children : List Node) :
    ∃ declared, behindAmong known parent place children = place.declare declared :=
  behindAmong_eq_declare known parent
    (fun child _ place => behind_eq_declare known child place) place

theorem behindAmong_append (front back : List Node) :
    behindAmong known parent place (front ++ back) =
      behindAmong known parent (behindAmong known parent place front) back := by
  induction front generalizing place with
  | nil => simp [behindAmong]
  | cons child rest ih => simp [behindAmong, ih]

/-- The place behind a child is the place of the next one. -/
theorem placeAt_snoc (known : Known) (trail : Trail) (parent child : Node)
    (before : List Node) :
    placeAt known (⟨parent, before ++ [child]⟩ :: trail) =
      if parent.isCallName child then placeAt known (⟨parent, before⟩ :: trail)
      else behind known (placeAt known (⟨parent, before⟩ :: trail)) child := by
  simp [placeAt, behindAmong_append, behindAmong]

theorem placeAt_first (known : Known) (trail : Trail) (parent : Node) :
    placeAt known (⟨parent, []⟩ :: trail) = below known (placeAt known trail) parent := by
  simp [placeAt, behindAmong]

theorem behindAmong_placeAt (known : Known) (trail : Trail) (parent : Node)
    (before after : List Node) :
    behindAmong known parent (placeAt known (⟨parent, before⟩ :: trail)) after =
      placeAt known (⟨parent, before ++ after⟩ :: trail) := by
  simp [placeAt, behindAmong_append]

/-- Children leave their declarations in the frame around them. -/
theorem behindAmong_left (known : Known) (trail : Trail) (parent : Node)
    {children : List Node} (before : List Node)
    (each : ∀ child ∈ children, ∀ trail, behind known (placeAt known trail) child =
      (placeAt known trail).declare ((left trail child).map (Site.toLocal known))) :
    behindAmong known parent (placeAt known (⟨parent, before⟩ :: trail)) children =
      (placeAt known (⟨parent, before⟩ :: trail)).declare
        ((leftAmong trail parent before children).map (Site.toLocal known)) := by
  induction children generalizing before with
  | nil => simp [behindAmong, leftAmong]
  | cons child rest ih =>
      have ihRest := ih (before ++ [child])
        fun later member => each later (List.mem_cons_of_mem _ member)
      rw [placeAt_snoc] at ihRest
      rw [behindAmong, leftAmong, List.map_append]
      split at ihRest
      · next named => simpa [named] using ihRest
      · next unnamed =>
          rw [if_neg unnamed, if_neg unnamed, ihRest, each child List.mem_cons_self,
            Place.declare_declare]

/-- A variable is declared at the place where its declaration ends. -/
theorem localsOf_placeAt (known : Known) (trail : Trail) (node : Node) :
    localsOf known (placeAt known (⟨node, node.children⟩ :: trail)) node =
      (if (declaredKind node.role).isSome then [(⟨trail, node⟩ : Site)] else []).map
        (Site.toLocal known) := by
  cases declares : declaredKind node.role with
  | none => simp [localsOf, declares]
  | some kind =>
      simp [localsOf, Site.toLocal, Site.name, Site.typeText, Site.kind, declares]

/-- A node leaves its declarations in the frame around it. -/
theorem behind_left (known : Known) (node : Node) (trail : Trail) :
    behind known (placeAt known trail) node =
      (placeAt known trail).declare ((left trail node).map (Site.toLocal known)) := by
  induction node using Node.inductionOnChildren generalizing trail with
  | step node ih =>
      have children := behindAmong_left known trail node [] ih
      rw [placeAt_first] at children
      cases shape node with
      | identifier isIdentifier =>
          simp [behind_of_isIdentifier isIdentifier, left_of_isIdentifier isIdentifier]
      | frame opens => simp [behind_of_opensFrame opens, left_of_opensFrame opens]
      | plain _ _ _ below behind left =>
          rw [below] at children
          rw [behind, left]
          exact children
      | «variable» kind =>
          have ends := behindAmong_placeAt known trail node [] node.children
          rw [placeAt_first, below_of_variable kind, List.nil_append] at ends
          rw [below_of_variable kind] at children
          rw [behind_of_variable kind, left_of_variable kind, List.map_append,
            ← localsOf_placeAt, ← Place.declare_declare, ← children, ends]
      | classDecl kind =>
          obtain ⟨classes, within⟩ := below_of_classDecl known (placeAt known trail) kind
          rw [behind_of_classDecl kind, left_of_classDecl kind, children, within,
            Place.declare_withClasses]
          exact (Place.declare_withClasses ..).symm

/-- The place at the end of a trail, from the place of the node above. -/
theorem placeAt_cons (known : Known) (step : Step) (outer : Trail) :
    placeAt known (step :: outer) =
      (below known (placeAt known outer) step.parent).declare
        ((leftAmong outer step.parent [] step.before).map (Site.toLocal known)) := by
  have left := behindAmong_left known outer step.parent []
    fun child (_ : child ∈ step.before) trail => behind_left known child trail
  rw [placeAt_first] at left
  exact left

theorem classes_below (known : Known) (place : Place) (node : Node) :
    (below known place node).classes =
      (className? known.qualifier.names node).toList ++ place.classes := by
  rw [below, className?]
  cases kind : node.kind with
  | classDecl name flavor =>
      dsimp only
      split <;> rfl
  | _ =>
      dsimp only
      split <;> rfl

/-- The classes around the end of a trail. -/
theorem classes_placeAt (known : Known) (trail : Trail) :
    (placeAt known trail).classes = classesAround known.qualifier.names trail := by
  induction trail with
  | nil => rfl
  | cons step outer ih =>
      calc (placeAt known (step :: outer)).classes
        _ = (className? known.qualifier.names step.parent).toList ++
            classesAround known.qualifier.names outer := by
          rw [placeAt_cons, Place.classes_declare, classes_below, ih]
        _ = classesAround known.qualifier.names (step :: outer) := by
          rw [classesAround, classesAround, List.filterMap_cons]
          cases className? known.qualifier.names step.parent <;> rfl

/-- Opening a frame shows and hides nothing. -/
theorem locals_below (known : Known) (place : Place) (node : Node) :
    (below known place node).locals = place.locals := by
  rw [below]
  split
  · split <;> rfl
  · split <;> rfl

theorem isEmpty_frames_below (known : Known) (place : Place) (node : Node) :
    (below known place node).frames.isEmpty = (!opensFrame node.kind && place.frames.isEmpty) := by
  rw [below]
  split
  · next name flavor kind =>
      rw [kind]
      split <;> rfl
  · split <;> simp_all

theorem isEmpty_frames_declare (place : Place) (declared : List Local) :
    (place.declare declared).frames.isEmpty = place.frames.isEmpty := by
  obtain ⟨classes, frames⟩ := place
  cases frames <;> rfl

theorem locals_declare (place : Place) (declared : List Local) :
    (place.declare declared).locals =
      (if place.frames.isEmpty then [] else declared) ++ place.locals := by
  obtain ⟨classes, frames⟩ := place
  cases frames <;> simp [Place.declare, Place.locals]

/-- There is a frame at the end of a trail if the trail leads into one. -/
theorem isEmpty_frames_placeAt (known : Known) (trail : Trail) :
    (placeAt known trail).frames.isEmpty = !isFramed trail := by
  induction trail with
  | nil => rfl
  | cons step outer ih =>
      rw [placeAt_cons, isEmpty_frames_declare, isEmpty_frames_below, ih]
      simp [isFramed]

/-- The locals at the end of a trail are the visible declarations. -/
theorem locals_placeAt (known : Known) (trail : Trail) :
    (placeAt known trail).locals = (visible trail).map (Site.toLocal known) := by
  induction trail with
  | nil => rfl
  | cons step outer ih =>
      have framed : (below known (placeAt known outer) step.parent).frames.isEmpty =
          !isFramed (step :: outer) := by
        rw [isEmpty_frames_below, isEmpty_frames_placeAt]
        simp [isFramed]
      calc (placeAt known (step :: outer)).locals
        _ = (if !isFramed (step :: outer) then []
              else (leftAmong outer step.parent [] step.before).map (Site.toLocal known)) ++
            (placeAt known outer).locals := by
          rw [placeAt_cons, locals_declare, framed, locals_below]
        _ = (visible (step :: outer)).map (Site.toLocal known) := by
          rw [ih, visible, List.map_append]
          cases isFramed (step :: outer) <;> rfl

/-- A name is declared in a tree for a local variable or a parameter. -/
structure Site.IsIn (root : Node) (site : Site) (name : String) : Prop where
  leads : Leads root site.trail site.node
  kind : site.node.kind = .variableDecl name
  role : site.node.role ≠ some .member

theorem exists_of_mem_leftAmong {site : Site} {before children : List Node}
    (leaves : site ∈ leftAmong trail parent before children) :
    ∃ front child back, children = front ++ child :: back ∧ parent.isCallName child = false ∧
      site ∈ left (⟨parent, before ++ front⟩ :: trail) child := by
  induction children generalizing before with
  | nil => simp [leftAmong] at leaves
  | cons child rest ih =>
      rw [leftAmong] at leaves
      rcases List.mem_append.mp leaves with later | own
      · obtain ⟨front, child', back, rfl, notName, leaves⟩ := ih later
        exact ⟨child :: front, child', back, rfl, notName, by simpa using leaves⟩
      · cases named : parent.isCallName child with
        | true => simp [named] at own
        | false => exact ⟨[], child, rest, rfl, named, by simpa [named] using own⟩

/-- What the node at the end of a trail leaves is declared at it or below it. -/
theorem isIn_of_mem_left {root : Node} {site : Site} (leads : Leads root trail node)
    (leaves : site ∈ left trail node) : site.IsIn root site.name := by
  induction node using Node.inductionOnChildren generalizing trail with
  | step node ih =>
      have among (leaves : site ∈ leftAmong trail node [] node.children) :
          site.IsIn root site.name := by
        obtain ⟨front, child, back, children, notName, leaves⟩ := exists_of_mem_leftAmong leaves
        exact ih child (by simp [children]) (leads.child children notName) leaves
      cases shape node with
      | identifier isIdentifier => simp [left_of_isIdentifier isIdentifier] at leaves
      | frame opens => simp [left_of_opensFrame opens] at leaves
      | plain _ _ _ _ _ left =>
          rw [left] at leaves
          exact among leaves
      | classDecl kind =>
          rw [left_of_classDecl kind] at leaves
          exact among leaves
      | «variable» kind =>
          rw [left_of_variable kind] at leaves
          rcases List.mem_append.mp leaves with own | below
          · cases declares : (declaredKind node.role).isSome with
            | false => simp [declares] at own
            | true =>
                obtain rfl : site = ⟨trail, node⟩ := by simpa [declares] using own
                refine ⟨leads, ?_, fun isMember => ?_⟩
                · rw [kind, Site.name, Node.name?, kind]
                  rfl
                · rw [isMember] at declares
                  cases declares
          · exact among below

/-- What is visible at the end of a trail is declared in the tree. -/
theorem isIn_of_mem_visible {root : Node} {site : Site} (leads : Leads root trail node)
    (isVisible : site ∈ visible trail) : site.IsIn root site.name := by
  induction leads with
  | root => cases isVisible
  | @child trail parent child before after above children notName ih =>
      rw [visible] at isVisible
      rcases List.mem_append.mp isVisible with here | outside
      · split at here
        · obtain ⟨front, earlier, back, rfl, notName, leaves⟩ := exists_of_mem_leftAmong here
          have split : parent.children = front ++ earlier :: (back ++ child :: after) := by
            simp [children]
          exact isIn_of_mem_left (above.child split notName) leaves
        · cases here
      · exact ih outside

/-- The nearest visible declaration of a name. -/
def nearest? (trail : Trail) (name : String) : Option Site :=
  (visible trail).find? fun site => site.name = name

/-- The nearest visible declaration declares the name in the tree. -/
theorem isIn_of_nearest? {root : Node} {site : Site} {name : String}
    (leads : Leads root trail node) (nearest : nearest? trail name = some site) :
    site.IsIn root name := by
  obtain rfl : site.name = name := by simpa using List.find?_some nearest
  exact isIn_of_mem_visible leads (List.mem_of_find?_eq_some nearest)

/-- The local that a name refers to is the nearest visible declaration. -/
theorem findLocal?_placeAt (known : Known) (trail : Trail) (name : String) :
    (placeAt known trail).findLocal? name = (nearest? trail name).map (Site.toLocal known) := by
  rw [Place.findLocal?, locals_placeAt, List.find?_map]
  rfl

end JavaStructure.Resolution
