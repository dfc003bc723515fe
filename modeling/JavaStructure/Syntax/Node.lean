/-
# Syntax nodes

The tree on which names are resolved and models are built. A node carries the
construct it stands for, the role it plays in its parent and the text it
covers. Node ids are unique within a tree that comes from a grammar tree; they
are what symbol information refers to.
-/

namespace JavaStructure.Syntax

/-- The name under which constructors are known, declared or not. -/
def constructorName : String := "<init>"

/-- The flavours of a type declaration. -/
inductive Flavor where
  | classType
  | interfaceType
  | enumType
  | recordType
  | annotationType
  deriving DecidableEq

/-- The constructs a node can stand for. -/
inductive Kind where
  | compilationUnit
  | packageDecl
  | importDecl
  /-- A type declaration. The body of an anonymous class has an empty name. -/
  | classDecl (name : String) (flavor : Flavor)
  /-- A method or a constructor. -/
  | methodDecl (name : String)
  /-- A field, a parameter or a local variable. -/
  | variableDecl (name : String)
  | block
  | conditional
  | forLoop
  | enhancedFor
  | whileLoop
  | doWhileLoop
  | switch
  /-- One label of a switch, the default where there is no text. A label with
  an arrow ends its own case. -/
  | caseLabel (label : Option String) (hasBody arrow : Bool)
  | breakExit
  | returnExit
  | creation
  /-- A call; `select` is the called expression as written. -/
  | invocation (select : String)
  | identifier (name : String) (typePosition : Bool)
  | parameterizedType
  | memberSelect
  | lambda
  | thisRef
  | superRef
  /-- Any other construct, under the name of its grammar rule. -/
  | other (rule : String)
  deriving DecidableEq

/-- The roles a node can play in its parent. -/
inductive Role where
  | superclass
  | superinterface
  | member
  | type
  | returnType
  | parameter
  | body
  | condition
  | loopVariable
  | expression
  | identifier
  | object
  | name
  | argument
  | initialValue
  | label
  | alternative
  deriving DecidableEq

/-- A node of the tree. Lines count from one. -/
structure Node where
  id : Nat
  kind : Kind
  role : Option Role
  text : String
  line : Nat
  children : List Node

namespace Node

/-- The first child in a role. -/
def childAs (node : Node) (role : Role) : Option Node :=
  node.children.find? fun child => child.role = some role

/-- All children in a role, in source order. -/
def childrenAs (node : Node) (role : Role) : List Node :=
  node.children.filter fun child => child.role = some role

/-- The name a declaration or an identifier carries. -/
def name? (node : Node) : Option String :=
  match node.kind with
  | .classDecl name _ => some name
  | .methodDecl name => some name
  | .variableDecl name => some name
  | .identifier name _ => some name
  | _ => none

/-- The number of nodes in a tree. -/
def size : Node → Nat
  | ⟨_, _, _, _, _, children⟩ => 1 + sizeAll children
where
  /-- The number of nodes in a list of trees. -/
  sizeAll : List Node → Nat
    | [] => 0
    | node :: rest => node.size + sizeAll rest

/-- The nodes of a tree, each before the nodes below it. -/
def preorder : Node → List Node
  | node@⟨_, _, _, _, _, children⟩ => node :: preorderAll children
where
  /-- The nodes of a list of trees, tree by tree. -/
  preorderAll : List Node → List Node
    | [] => []
    | node :: rest => node.preorder ++ preorderAll rest

/-- A property holds of a tree if it holds of every node whose children have it. -/
theorem inductionOnChildren {property : Node → Prop}
    (step : ∀ node : Node, (∀ child ∈ node.children, property child) → property node)
    (node : Node) : property node :=
  Node.rec (motive_1 := property) (motive_2 := fun nodes => ∀ child ∈ nodes, property child)
    (fun _ _ _ _ _ children ih => step _ ih)
    (by simp)
    (fun head tail ihHead ihTail child h => by
      rcases List.mem_cons.1 h with rfl | h
      · exact ihHead
      · exact ihTail child h)
    node

/-- Pre-order lists every node once. -/
theorem length_preorder (node : Node) : node.preorder.length = node.size :=
  Node.rec (motive_1 := fun node => node.preorder.length = node.size)
    (motive_2 := fun nodes => (preorder.preorderAll nodes).length = size.sizeAll nodes)
    (fun _ _ _ _ _ children ih => by simp [preorder, size, ih]; omega)
    (by simp [preorder.preorderAll, size.sizeAll])
    (fun head tail ihHead ihTail => by
      simp [preorder.preorderAll, size.sizeAll, ihHead, ihTail])
    node

/-- Give the nodes of a tree the ids from `next` on, in pre-order. -/
def number (next : Nat) : Node → Node
  | ⟨_, kind, role, text, line, children⟩ =>
      ⟨next, kind, role, text, line, numberAll (next + 1) children⟩
where
  /-- Number a list of trees, each from where the one before it stopped. -/
  numberAll (next : Nat) : List Node → List Node
    | [] => []
    | node :: rest => node.number next :: numberAll (next + node.size) rest

end Node

/-- A compilation unit: the tree of one source file beside its path. -/
structure CompilationUnit where
  path : String
  root : Node

end JavaStructure.Syntax
