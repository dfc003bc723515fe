/-
# Grammar nodes

The tree a Java parser gives for a source text. A node carries the name of its
grammar rule, the field it fills in its parent, the text it covers and the rows
of its ends. Parsers hand the tree over as a flat list of rows in pre-order,
each with its depth; `Node.ofRows?` builds the tree from them.
-/

namespace JavaStructure.Grammar

/-- A node of the parser's tree. Rows count from zero. -/
structure Node where
  kind : String
  field : Option String
  /-- Whether the rule has a name, in contrast to a bare token. -/
  named : Bool
  /-- Whether the node may stand anywhere, as a comment does. -/
  extra : Bool
  text : String
  firstRow : Nat
  lastRow : Nat
  children : List Node

namespace Node

/-- The first child that fills a field. -/
def childOf (node : Node) (field : String) : Option Node :=
  node.children.find? fun child => child.field == some field

/-- A node that is named and stands where the grammar asks for it. -/
def isProper (node : Node) : Bool :=
  node.named && !node.extra

/-- The named children in source order, comments left out. -/
def parts (node : Node) : List Node :=
  node.children.filter isProper

/-- The number of nodes in a tree. -/
def size : Node → Nat
  | ⟨_, _, _, _, _, _, _, children⟩ => 1 + sizeAll children
where
  /-- The number of nodes in a list of trees. -/
  sizeAll : List Node → Nat
    | [] => 0
    | node :: rest => node.size + sizeAll rest

/-- A tree has its root and the nodes below it. -/
theorem size_eq (node : Node) : node.size = 1 + size.sizeAll node.children := by
  cases node
  simp [size]

/-- A property holds of a tree if it holds of every node whose children have it. -/
theorem inductionOnChildren {property : Node → Prop}
    (step : ∀ node : Node, (∀ child ∈ node.children, property child) → property node)
    (node : Node) : property node :=
  Node.rec (motive_1 := property) (motive_2 := fun nodes => ∀ child ∈ nodes, property child)
    (fun _ _ _ _ _ _ _ children ih => step _ ih)
    (by simp)
    (fun head tail ihHead ihTail child member => by
      rcases List.mem_cons.mp member with rfl | member
      · exact ihHead
      · exact ihTail child member)
    node

/-- A member of a list of trees is no larger than the list. -/
theorem size_le_sizeAll {node : Node} {nodes : List Node} (h : node ∈ nodes) :
    node.size ≤ size.sizeAll nodes := by
  induction nodes with
  | nil => simp at h
  | cons head rest ih =>
      rcases List.mem_cons.1 h with rfl | h
      · simp [size.sizeAll]
      · have := ih h
        simp only [size.sizeAll]
        omega

/-- A child is smaller than its parent. -/
theorem size_lt_of_mem_children {node child : Node} (h : child ∈ node.children) :
    child.size < node.size := by
  have := size_le_sizeAll h
  rw [size_eq node]
  omega

theorem mem_children_of_childOf {node child : Node} {field : String}
    (h : node.childOf field = some child) : child ∈ node.children :=
  List.mem_of_find?_eq_some h

theorem mem_children_of_mem_parts {node child : Node} (h : child ∈ node.parts) :
    child ∈ node.children :=
  (List.mem_filter.1 h).1

end Node

/-- One row of a flat tree: the depth of a node beside its own data. -/
structure Row where
  depth : Nat
  kind : String
  field : Option String
  named : Bool
  extra : Bool
  /-- The bytes covered, from the first up to the one after the last. -/
  firstByte : Nat
  lastByte : Nat
  firstRow : Nat
  lastRow : Nat

/-- The text between two byte positions, empty where they cut a character. -/
def textBetween (source : ByteArray) (first last : Nat) : String :=
  (String.fromUTF8? (source.extract first last)).getD ""

/-- Put a row in front of the trees that follow it: those that are deeper are
its children. -/
def Row.graft (source : ByteArray) (row : Row) (later : List (Nat × Node)) :
    List (Nat × Node) :=
  let (below, beside) := later.span fun (depth, _) => row.depth < depth
  (row.depth,
    { kind := row.kind
      field := row.field
      named := row.named
      extra := row.extra
      text := textBetween source row.firstByte row.lastByte
      firstRow := row.firstRow
      lastRow := row.lastRow
      children := below.map (·.2) }) :: beside

/-- The tree that rows in pre-order describe, for a source text. -/
def Node.ofRows? (source : String) (rows : List Row) : Option Node :=
  (rows.foldr (Row.graft source.toUTF8) []).head?.map (·.2)

/-- A source text as the parser sees it. -/
structure Parse where
  root : Node
  /-- Whether the parser had to recover from a syntax error. -/
  hasErrors : Bool

end JavaStructure.Grammar
