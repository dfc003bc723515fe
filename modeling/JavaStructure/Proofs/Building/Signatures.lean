/-
# Which class a method belongs to

The walk knows the class it is in by a position that is replaced, hidden and restored. Here
the same is read off the tree: a method declaration belongs to the innermost class
declaration around it, and to none where that class is anonymous. The declared methods of
a model are those of the tree in pre-order, each with its class and its parameters.

Only nodes that the walk visits are looked at. What the methods do is not the subject of
this module.
-/

import JavaStructure.Proofs.Building.Attribution
import JavaStructure.Proofs.Building.Independence
import JavaStructure.Proofs.Model.Signatures

namespace JavaStructure

open Syntax (Node Kind)

variable {resolver : Resolver} {around : Option String} {node : Node}

/-- The name of a declared parameter with that of its type, if the type is known. -/
def parameter? (resolver : Resolver) (node : Node) : Option (String × String) :=
  match node.kind with
  | .variableDecl name =>
      ((node.childAs .type).bind (resolver.typeName resolver.packageName)).map (name, ·)
  | _ => none

/-- What a node declares below a class, if it declares a method and the class has a name. -/
def signature? (resolver : Resolver) (around : Option String) (node : Node) :
    Option Signature :=
  match node.kind with
  | .methodDecl name => around.map fun owner =>
      { node := node.id
        owner
        name
        parameters := (node.childrenAs .parameter).filterMap (parameter? resolver) }
  | _ => none

/-- The qualified name of the innermost class around the children of a node. An anonymous
class has none. -/
def classBelow (resolver : Resolver) (around : Option String) (node : Node) : Option String :=
  match node.kind with
  | .classDecl name _ => declaredClassName resolver.packageName name
  | _ => around

namespace Syntax.Node

/-- What the method declarations of a tree declare, in pre-order, below a class of a name. -/
def signatures (resolver : Resolver) (around : Option String) : Node → List Signature
  | node@⟨_, kind, _, _, _, children⟩ =>
      (signature? resolver around node).toList ++
        if kind.isDescended then signaturesAll (classBelow resolver around node) children else []
where
  /-- What some trees declare, tree by tree. -/
  signaturesAll (around : Option String) : List Node → List Signature
    | [] => []
    | child :: rest => child.signatures resolver around ++ signaturesAll around rest

theorem signatures_eq (resolver : Resolver) (around : Option String) (node : Node) :
    node.signatures resolver around =
      (signature? resolver around node).toList ++
        if node.kind.isDescended then
          signatures.signaturesAll resolver (classBelow resolver around node) node.children
        else [] := by
  obtain ⟨id, kind, role, text, line, children⟩ := node
  rw [signatures]

theorem mem_signaturesAll {signature : Signature} {nodes : List Node} :
    signature ∈ signatures.signaturesAll resolver around nodes ↔
      ∃ node ∈ nodes, signature ∈ node.signatures resolver around := by
  induction nodes with
  | nil => simp [signatures.signaturesAll]
  | cons node rest ih => simp [signatures.signaturesAll, ih]

/-- What a tree declares is declared by its root or by one of its children. -/
theorem signatures_cases {signature : Signature}
    (declared : signature ∈ node.signatures resolver around) :
    signature? resolver around node = some signature ∨
      ∃ child ∈ node.children,
        signature ∈ child.signatures resolver (classBelow resolver around node) := by
  rw [signatures_eq] at declared
  rcases List.mem_append.mp declared with own | below
  · exact .inl (Option.mem_toList.mp own)
  · split at below
    · exact .inr (mem_signaturesAll.mp below)
    · cases below

end Syntax.Node

theorem exists_of_signature?_eq_some {signature : Signature}
    (found : signature? resolver around node = some signature) :
    ∃ name owner, node.kind = .methodDecl name ∧ around = some owner ∧
      signature.node = node.id := by
  unfold signature? at found
  split at found
  · next name kind =>
      obtain ⟨owner, known, rfl⟩ := Option.map_eq_some_iff.mp found
      exact ⟨name, owner, kind, known, rfl⟩
  · cases found

/-- A node declares at most the method that it is. -/
theorem signature?_sublist (resolver : Resolver) (around : Option String) (node : Node) :
    ((signature? resolver around node).toList.map (·.node)).Sublist [node.id] := by
  unfold signature?
  split
  · cases around with
    | none => exact List.nil_sublist _
    | some owner => exact .refl _
  · exact List.nil_sublist _

/-- The declarations of a tree are among its nodes, in pre-order. -/
theorem signatures_sublist (resolver : Resolver) (around : Option String) (node : Node) :
    ((node.signatures resolver around).map (·.node)).Sublist (node.preorder.map (·.id)) := by
  induction node using Node.inductionOnChildren generalizing around with
  | step node ih =>
      have children (around : Option String) :
          ∀ nodes ⊆ node.children,
            ((Node.signatures.signaturesAll resolver around nodes).map (·.node)).Sublist
              (Node.idsAmong nodes) := by
        intro nodes among
        induction nodes with
        | nil => exact List.nil_sublist _
        | cons child rest ihRest =>
            rw [Node.signatures.signaturesAll, Node.idsAmong_cons, List.map_append]
            obtain ⟨inside, restAmong⟩ := List.cons_subset.mp among
            exact (ih child inside around).append (ihRest restAmong)
      rw [Node.signatures_eq, Node.preorder_eq, List.map_append, List.map_cons,
        ← List.singleton_append]
      apply (signature?_sublist resolver around node).append
      split
      · exact children _ _ (List.Subset.refl _)
      · exact List.nil_sublist _

theorem mem_ids_of_mem_signatures {signature : Signature}
    (declared : signature ∈ node.signatures resolver around) :
    signature.node ∈ node.preorder.map (·.id) :=
  (signatures_sublist resolver around node).subset (List.mem_map_of_mem declared)

/-- A node that no named class is around declares nothing itself. -/
theorem mem_ids_of_mem_signatures_none {signature : Signature}
    (declared : signature ∈ node.signatures resolver none) :
    signature.node ∈ Node.idsAmong node.children := by
  rcases Node.signatures_cases declared with own | ⟨child, inside, deeper⟩
  · obtain ⟨_, _, -, named, -⟩ := exists_of_signature?_eq_some own
    cases named
  · obtain ⟨inner, below, same⟩ := List.mem_map.mp (mem_ids_of_mem_signatures deeper)
    exact List.mem_map.mpr ⟨inner, Node.mem_preorderAll.mpr ⟨child, inside, below⟩, same⟩

/-- In a tree with distinct ids, no member of an anonymous class is declared. -/
theorem signatures_of_anonymous {root body member : Node} {flavor : Syntax.Flavor}
    (distinct : root.HasDistinctIds) (below : body ∈ root.preorder)
    (anonymous : body.kind = .classDecl "" flavor) (inside : member ∈ body.children)
    (around : Option String) :
    ∀ signature ∈ root.signatures resolver around, signature.node ≠ member.id := by
  have memberBelow : member ∈ body.preorder :=
    Node.mem_preorder_of_mem_children inside member.mem_preorder_self
  induction root using Node.inductionOnChildren generalizing around with
  | step root ih =>
      intro signature declared same
      have used {outer : Node} (within : member ∈ outer.preorder) :
          signature.node ∈ outer.preorder.map (·.id) := same ▸ List.mem_map_of_mem within
      rw [Node.preorder_eq] at below
      rcases List.mem_cons.mp below with rfl | deeper
      · -- The class itself: what is declared below it stands below one of its members.
        rcases Node.signatures_cases declared with own | ⟨child, insideToo, declaredBelow⟩
        · obtain ⟨_, _, kind, -⟩ := exists_of_signature?_eq_some own
          rw [anonymous] at kind
          cases kind
        · have none : classBelow resolver around body = none := by
            simp [classBelow, anonymous, declaredClassName]
          rw [none] at declaredBelow
          obtain rfl := distinct.child_unique insideToo inside
            (mem_ids_of_mem_signatures declaredBelow) (used member.mem_preorder_self)
          have notBelow := (distinct.of_mem memberBelow).notBelow
          exact notBelow (same ▸ mem_ids_of_mem_signatures_none declaredBelow)
      · obtain ⟨outer, outerInside, within⟩ := Node.mem_preorderAll.mp deeper
        have memberWithin := Node.mem_preorder_trans within memberBelow
        rcases Node.signatures_cases declared with own | ⟨child, insideToo, declaredThere⟩
        · obtain ⟨_, _, -, -, here⟩ := exists_of_signature?_eq_some own
          have notBelow := distinct.notBelow
          rw [← here, same] at notBelow
          exact notBelow (List.mem_map_of_mem
            (Node.mem_preorderAll.mpr ⟨outer, outerInside, memberWithin⟩))
        · obtain rfl := distinct.child_unique insideToo outerInside
            (mem_ids_of_mem_signatures declaredThere) (used memberWithin)
          have distinctBelow := distinct.of_mem
            (Node.mem_preorder_of_mem_children outerInside outer.mem_preorder_self)
          exact ih outer outerInside distinctBelow within _ signature declaredThere same

namespace Builder

variable {place : Place} {builder before after inside : Builder} {leaving : Builder → Builder}

/-- A method declared now would belong to a class of this name, or to none. -/
def OwnedBy (around : Option String) (builder : Builder) : Prop :=
  builder.methodOwner.map builder.model.nameOf = around.map some

theorem OwnedBy.eq_none (owned : OwnedBy around builder) (ownerless : builder.methodOwner = none) :
    around = none := by
  rw [OwnedBy, ownerless] at owned
  cases around with
  | none => rfl
  | some name => simp at owned

theorem OwnedBy.exists_name (owned : OwnedBy around builder) {owner : TypeId}
    (found : builder.methodOwner = some owner) :
    ∃ name, around = some name ∧ builder.model.nameOf owner = some name := by
  rw [OwnedBy, found] at owned
  cases around with
  | none => simp at owned
  | some name => exact ⟨name, rfl, by simpa using owned⟩

/-- The class stays the same while the model grows. -/
theorem OwnedBy.grows (owned : OwnedBy around before)
    (same : after.methodOwner = before.methodOwner) (grows : before.model.Grows after.model) :
    OwnedBy around after := by
  rw [OwnedBy, same]
  cases found : before.methodOwner with
  | none => rw [owned.eq_none found]; rfl
  | some owner =>
      obtain ⟨name, rfl, known⟩ := owned.exists_name found
      simp [grows.nameOf known]

/-- A visit ends in the class where it started. -/
theorem Keeps.ownedBy (keeps : Keeps before after) (owned : OwnedBy around before) :
    OwnedBy around after := by
  refine owned.grows ?_ keeps.grows
  simp only [methodOwner, keeps.currentClass, keeps.anonymousDepth]

/-- A parameter gets a slot if its type is known. -/
theorem slotOf_describes (resolver : Resolver) (builder : Builder) (node : Node)
    (packageName : builder.model.moduleInfo.packageName = resolver.packageName) :
    List.Forall₂ (builder.slotOf resolver node).2.model.DescribesSlot
      (parameter? resolver node).toList (builder.slotOf resolver node).1.toList := by
  have same : builder.typeName resolver = resolver.typeName resolver.packageName := by
    funext node
    rw [Builder.typeName, packageName]
  cases kind : node.kind with
  | variableDecl name =>
      simp only [slotOf, parameter?, kind, same]
      cases (node.childAs .type).bind (resolver.typeName resolver.packageName) with
      | none => exact .nil
      | some typeName => exact .cons ⟨rfl, Model.nameOf_intern builder.model typeName⟩ .nil
  | _ =>
      simp only [slotOf, parameter?, kind]
      exact .nil

/-- The parameters of a declaration are those whose types are known, in order. -/
theorem slotsOf_describes (resolver : Resolver) (builder : Builder) (nodes : List Node)
    (packageName : builder.model.moduleInfo.packageName = resolver.packageName) :
    List.Forall₂ (builder.slotsOf resolver nodes).2.model.DescribesSlot
      (nodes.filterMap (parameter? resolver)) (builder.slotsOf resolver nodes).1 := by
  induction nodes generalizing builder with
  | nil => exact .nil
  | cons node rest ih =>
      have first := slotOf_describes resolver builder node packageName
      have kept := (slotOf_refers resolver builder node).model.packageName.trans packageName
      have later := slotsOf_refers resolver (builder.slotOf resolver node).2 rest
      have split : (node :: rest).filterMap (parameter? resolver) =
          (parameter? resolver node).toList ++ rest.filterMap (parameter? resolver) := by
        cases found : parameter? resolver node <;> simp [found]
      rw [split]
      exact List.rel_append
        (first.imp fun _ _ describes => describes.grows later.model.toGrows) (ih _ kept)

/-- A method declaration in a named class declares its method. -/
theorem declareMethod_declares (resolver : Resolver) (builder : Builder) {name ownerName : String}
    (kind : node.kind = .methodDecl name)
    (packageName : builder.model.moduleInfo.packageName = resolver.packageName)
    {owner : TypeId} (known : builder.model.nameOf owner = some ownerName)
    (fresh : node.id ∉ builder.model.declaredNodes) :
    Model.Declares (signature? resolver (some ownerName) node).toList builder.model
      (builder.declareMethod resolver node owner name).2.model := by
  have slots := slotsOf_mentions resolver builder (node.childrenAs .parameter)
  have described := slotsOf_describes resolver builder (node.childrenAs .parameter) packageName
  have silent := Model.Declares.of_declaredNodes_eq slots.model.toGrows slots.model.declaredNodes
  rw [← slots.model.declaredNodes] at fresh
  have added := Model.Declares.addMethod
    ⟨node.id, ownerName, name, (node.childrenAs .parameter).filterMap (parameter? resolver)⟩
    fresh (slots.model.toGrows.nameOf known) described
  simp only [signature?, kind, Option.map_some, Option.toList_some]
  exact silent.nil_trans added

/-- A method is declared where its signature is known. -/
theorem declared_eq_map (resolver : Resolver) (same : place.inNamedClass = around.isSome)
    (node : Node) :
    declared place node = (signature? resolver around node).toList.map (·.node) := by
  cases kind : node.kind with
  | methodDecl name => cases around <;> simp_all [declared, signature?]
  | _ => simp [declared, signature?, kind]

/-- Entering a node declares the method that the node is. -/
theorem enter_declares (here : At resolver place builder)
    (distinct : builder.model.declaredNodes.Nodup) (fresh : node.id ∉ builder.model.declaredNodes)
    (owned : OwnedBy around builder) (descended : node.kind.isDescended = true) :
    Model.Declares (signature? resolver around node).toList builder.model
      (enter resolver node builder).model := by
  have opening := opening_of_isDescended resolver builder descended
  obtain ⟨received, -⟩ := enter_receives opening here distinct fresh
  have inNamedClass : place.inNamedClass = around.isSome := by
    rw [← here.inNamedClass, ← Option.isSome_map, owned, Option.isSome_map]
  rw [declared_eq_map resolver inNamedClass] at received
  cases found : signature? resolver around node with
  | none =>
      rw [found] at received
      exact .of_declaredNodes_eq received.toGrows (by simpa using received.declaredNodes)
  | some signature =>
      obtain ⟨name, ownerName, kind, rfl, -⟩ := exists_of_signature?_eq_some found
      obtain ⟨owner, current, known⟩ := Option.map_eq_some_iff.mp owned
      simp only [enter, kind, current]
      exact found ▸
        declareMethod_declares resolver builder kind here.packageName known fresh

/-- The class around the children of a node is the one that the walk is in. -/
theorem enter_ownedBy (owned : OwnedBy around builder)
    (packageName : builder.model.moduleInfo.packageName = resolver.packageName) :
    OwnedBy (classBelow resolver around node) (enter resolver node builder) := by
  have noted {after : Builder} (notes : Notes builder after) : OwnedBy around after :=
    (notes_keeps notes).ownedBy owned
  unfold enter classBelow
  cases kind : node.kind with
  | classDecl name flavor =>
      simp only [packageName]
      cases declaredClassName resolver.packageName name with
      | none => simp [OwnedBy, methodOwner]
      | some qualified => exact congrArg some (nameOf_declareClass resolver builder node qualified)
  | methodDecl name =>
      cases builder.methodOwner with
      | none => exact owned
      | some owner =>
          have registers := declareMethod_registers resolver builder node owner name
          have kept := (Keeps.of_registers registers).ownedBy owned
          exact kept
  | conditional | forLoop | whileLoop | doWhileLoop | enhancedFor =>
      exact (openScope_keeps builder _).ownedBy owned
  | caseLabel label hasBody arrow => exact (startCase_keeps builder _ _).ownedBy owned
  | creation => exact noted (construct_notes resolver builder node)
  | invocation select => exact noted (invoke_notes resolver builder node select)
  | _ => exact owned

/-- A node that is visited as a whole declares nothing. -/
theorem visitLeaf_declares (leaf : node.kind.isDescended = false)
    (here : At resolver place builder) (distinct : builder.model.declaredNodes.Nodup) :
    Model.Declares (signature? resolver around node).toList builder.model
      (visitLeaf resolver node builder).model := by
  have received := visitLeaf_receives leaf here distinct
  have undeclared : declared place node = [] ∧ signature? resolver around node = none := by
    cases kind : node.kind <;> simp_all [declared, signature?, Kind.isDescended]
  rw [undeclared.1] at received
  rw [undeclared.2]
  exact .of_declaredNodes_eq received.toGrows (by simpa using received.declaredNodes)

/-- The visits of children declare what the children declare, one after the other. -/
theorem visitAll_declares {children : List Node} (here : At resolver place builder)
    (owned : OwnedBy around builder)
    (fresh : (builder.model.declaredNodes ++ Node.idsAmong children).Nodup)
    (each : ∀ child ∈ children, ∀ {place : Place} {builder : Builder}, At resolver place builder →
      OwnedBy around builder → (builder.model.declaredNodes ++ child.preorder.map (·.id)).Nodup →
      Model.Declares (child.signatures resolver around) builder.model
        (visit resolver child builder).model) :
    Model.Declares (Node.signatures.signaturesAll resolver around children) builder.model
      (visitAll resolver children builder).model := by
  induction children generalizing builder with
  | nil => simpa [Node.signatures.signaturesAll] using Model.Declares.refl builder.model
  | cons child rest ih =>
      rw [Node.idsAmong_cons] at fresh
      rw [visitAll_cons, Node.signatures.signaturesAll]
      have freshChild :=
        fresh.sublist ((List.Sublist.refl _).append (List.sublist_append_left _ _))
      have entered : OwnedBy around (enterRole child builder) := by
        unfold enterRole
        split <;> exact owned
      rw [← enterRole_model child] at freshChild
      have first := each child List.mem_cons_self (enterRole_at here child) entered freshChild
      have received := visit_receives resolver child (enterRole_at here child) freshChild
      rw [enterRole_model, ← visitChild_model] at first received
      have kept := visitChild_keeps (visit_keeps resolver child) builder
      have freshRest := received.nodup fresh (gather_declared_sublist _ child _)
      exact first.trans (ih (kept.at here) (kept.ownedBy owned) freshRest fun later member =>
        each later (List.mem_cons_of_mem _ member))

/-- The visit of a tree whose nodes are new declares what the tree declares. -/
theorem visit_declares (resolver : Resolver) (node : Node) (here : At resolver place builder)
    (owned : OwnedBy around builder)
    (fresh : (builder.model.declaredNodes ++ node.preorder.map (·.id)).Nodup) :
    Model.Declares (node.signatures resolver around) builder.model
      (visit resolver node builder).model := by
  induction node using Node.inductionOnChildren generalizing place around builder with
  | step node ih =>
      rw [Node.preorder_eq, List.map_cons, ← List.singleton_append] at fresh
      have distinct : builder.model.declaredNodes.Nodup :=
        fresh.sublist (List.sublist_append_left _ _)
      have new : node.id ∉ builder.model.declaredNodes := by
        intro member
        exact (List.nodup_append.mp fresh).2.2 _ member _ (by simp) rfl
      rw [Node.signatures_eq]
      cases descended : node.kind.isDescended with
      | false =>
          rw [visit_eq_visitLeaf resolver builder descended]
          simpa using visitLeaf_declares descended here distinct
      | true =>
          rw [visit_eq_leave resolver builder descended, if_pos rfl]
          have opening := opening_of_isDescended resolver builder descended
          obtain ⟨received, below⟩ := enter_receives opening here distinct new
          have freshBelow := received.nodup fresh (declared_sublist place node)
          have entered := enter_declares here distinct new owned descended
          have children := visitAll_declares below (enter_ownedBy owned here.packageName)
            freshBelow fun child member {_ _} => ih child member
          have left := leaving_silent opening (visitAll resolver node.children
            (enter resolver node builder))
          exact (entered.trans children).trans_nil
            (.of_declaredNodes_eq left.toGrows (by simpa using left.declaredNodes))

end Builder

/-- In a tree with distinct node ids, the methods of the model that stand for declarations are,
in the order of the methods, those of the visited method declarations in pre-order whose
innermost class has a name: each belongs to the type of that class and has the parameters
whose types are known. The members of an anonymous class become no methods. -/
theorem ofUnit_declares (resolver : Resolver) (root : Node) (path : String)
    (distinct : root.HasDistinctIds) :
    List.Forall₂ (Model.ofUnit resolver root path).Describes (root.signatures resolver none)
        (Model.ofUnit resolver root path).declaredHeaders ∧
      ((root.signatures resolver none).map (·.node)).Sublist (root.preorder.map (·.id)) ∧
      ∀ body ∈ root.preorder, ∀ flavor, body.kind = .classDecl "" flavor →
        ∀ member ∈ body.children, ∀ method ∈ (Model.ofUnit resolver root path).methods,
          method.origin ≠ .node member.id := by
  have unowned : Builder.OwnedBy none (Builder.initial resolver path) := rfl
  have declares :=
    Builder.visit_declares resolver root (Builder.initial_at resolver path) unowned distinct
  obtain ⟨added, appended, described⟩ := declares.declaredHeaders
  have all : (Model.ofUnit resolver root path).declaredHeaders = added := appended
  refine ⟨all ▸ described, signatures_sublist resolver none root, ?_⟩
  intro body below flavor anonymous member inside method found origin
  have listed : method.header ∈ added := by
    rw [← all]
    refine List.mem_map_of_mem (List.mem_filter.mpr ⟨found, ?_⟩)
    rw [origin]
    rfl
  have named : member.id ∈ added.filterMap (·.origin.node?) :=
    List.mem_filterMap.mpr ⟨method.header, listed, congrArg Origin.node? origin⟩
  rw [Model.nodes_of_describes described] at named
  obtain ⟨signature, declared, same⟩ := List.mem_map.mp named
  exact signatures_of_anonymous distinct below anonymous inside none signature declared same

/-- A resolver that knows one class. -/
def yardResolver : Resolver :=
  { packageName := "estate"
    lineCount := 0
    symbol := fun node =>
      if node.name? = some "Door" then
        some { kind := .classSymbol, name := "Door", qualifiedName := some "estate.Door" }
      else none
    scope := fun _ => none }

/-- A parameter of a type. -/
def yardParameter (id : Nat) (name type : String) : Node :=
  { Node.bare id (.variableDecl name)
      [{ Node.bare (id + 1) (.identifier type true) [] with role := some .type }] with
    role := some .parameter }

/-- A unit with a nested class and an anonymous one, and a method after both. -/
def yardUnit : Node :=
  .bare 0 .compilationUnit
    [.bare 1 (.classDecl "Yard" .classType)
      [.bare 2 (.methodDecl "enter")
        [yardParameter 3 "weather" "Weather", yardParameter 5 "front" "Door",
        .bare 7 .creation
          [.bare 8 (.classDecl "" .classType) [.bare 9 (.methodDecl "close") []]]],
      .bare 10 (.classDecl "Shed" .classType) [.bare 11 (.methodDecl "store") []],
      .bare 12 (.methodDecl "leave") []]]

/-- The method after the nested class belongs to the outer one. -/
theorem yardUnit_declares :
    List.Forall₂ (Model.ofUnit yardResolver yardUnit "Yard.java").Describes
        [⟨2, "estate.Yard", "enter", [("front", "estate.Door")]⟩,
          ⟨11, "estate.Shed", "store", []⟩, ⟨12, "estate.Yard", "leave", []⟩]
        (Model.ofUnit yardResolver yardUnit "Yard.java").declaredHeaders ∧
      ∀ method ∈ (Model.ofUnit yardResolver yardUnit "Yard.java").methods,
        method.origin ≠ .node 9 := by
  have signatures : yardUnit.signatures yardResolver none =
      [⟨2, "estate.Yard", "enter", [("front", "estate.Door")]⟩,
        ⟨11, "estate.Shed", "store", []⟩, ⟨12, "estate.Yard", "leave", []⟩] := by
    decide +kernel
  have distinct : yardUnit.HasDistinctIds := by
    rw [Node.HasDistinctIds]
    decide
  obtain ⟨described, -, anonymous⟩ := ofUnit_declares yardResolver yardUnit "Yard.java" distinct
  rw [signatures] at described
  refine ⟨described, ?_⟩
  have below : .bare 8 (.classDecl "" .classType) [.bare 9 (.methodDecl "close") []] ∈
      yardUnit.preorder := by
    simp [yardUnit, yardParameter, Node.bare, Node.preorder, Node.preorder.preorderAll]
  exact anonymous _ below .classType rfl (.bare 9 (.methodDecl "close") []) List.mem_cons_self

end JavaStructure
