/-
# Sketches

What a grammar construct contributes to the syntax tree, without the order in which ids are
taken. A sketch is a syntax tree of which some leaves are still grammar nodes, each with the
role its result will play. A construct is described by its sketch, and a grammar node is
lowered by filling its sketch.
-/

import JavaStructure.Grammar.Construct

namespace JavaStructure.Grammar

open Syntax (Kind Role)

/-- A syntax tree with pending leaves. -/
inductive Sketch where
  | pending (role : Option Role) (node : Node)
  | built (kind : Kind) (role : Option Role) (text : String) (line : Nat)
      (parts : List Sketch)

namespace Sketch

/-- The sketch of a node that covers the same text as a grammar node. -/
def of (source : Node) (kind : Kind) (role : Option Role) (parts : List Sketch) : Sketch :=
  .built kind role source.text (source.firstRow + 1) parts

/-- Replace every pending leaf by what `lower` makes of it. Ids are given
later, when the tree is complete; until then every node has the id zero. -/
def fill (lower : Option Role → Node → List Syntax.Node) : Sketch → List Syntax.Node
  | .pending role node => lower role node
  | .built kind role text line parts => [⟨0, kind, role, text, line, fillAll lower parts⟩]
where
  /-- Fill a list of sketches, in order. -/
  fillAll (lower : Option Role → Node → List Syntax.Node) : List Sketch → List Syntax.Node
    | [] => []
    | sketch :: rest => fill lower sketch ++ fillAll lower rest

theorem fillAll_eq_flatMap (lower : Option Role → Node → List Syntax.Node)
    (sketches : List Sketch) : fill.fillAll lower sketches = sketches.flatMap (fill lower) := by
  induction sketches with
  | nil => rfl
  | cons sketch rest ih => rw [fill.fillAll, ih, List.flatMap_cons]

theorem fillAll_append (lower : Option Role → Node → List Syntax.Node) (front back : List Sketch) :
    fill.fillAll lower (front ++ back) =
      fill.fillAll lower front ++ fill.fillAll lower back := by
  rw [fillAll_eq_flatMap, fillAll_eq_flatMap, fillAll_eq_flatMap, List.flatMap_append]

end Sketch

namespace Node

/-- A grammar node that fills a field with a text, without rows. -/
def bare (kind : String) (field : Option String) (text : String) (children : List Node) : Node :=
  ⟨kind, field, true, false, text, 0, 0, children⟩

/-- All parts of a node, in one role. -/
def pendingParts (node : Node) (role : Option Role) : List Sketch :=
  node.parts.map (Sketch.pending role)

/-- The child in a field, if there is one, in a role. -/
def pendingField (node : Node) (field : String) (role : Role) : List Sketch :=
  (node.childOf field).toList.map (Sketch.pending (some role))

/-- The condition of a statement. -/
def pendingCondition (node : Node) : List Sketch :=
  node.condition?.toList.map (.pending (some .condition))

/-- The arguments of a call or of a construction. -/
def pendingArguments (node : Node) : List Sketch :=
  node.pendingParts (some .argument)

/-- The types of an extends or implements clause, those inside nested lists
included. -/
def typeEntries (role : Role) (node : Node) : List Sketch :=
  (node.spreadParts isTypeList).map (.pending (some role))

/-- The members of a type body. -/
def bodyEntries (node : Node) : List Sketch :=
  (node.spreadParts isSecondHalf).map (.pending none)

/-- The body of an instance creation or of an enumeration constant. -/
def anonymousClass (node : Node) (role : Option Role) : Sketch :=
  .of node (.classDecl "" .classType) role node.bodyEntries

/-- A formal, variable-arity or catch parameter. A catch parameter has a type
child for each alternative. -/
def parameter (node : Node) (role : Option Role) : Sketch :=
  let (type, name) := node.parameterTypeAndName
  let types := match type with
    | none => []
    | some type =>
        if type.kind = "catch_type" then type.pendingParts (some .type)
        else [.pending (some .type) type]
  .of node (.variableDecl ((name.map (·.text)).getD "")) role types

/-- A bare name that stands for a parameter. -/
def nameParameter (node : Node) : Sketch :=
  .of node (.variableDecl node.text) (some .parameter) []

/-- The parameters of a parameter list. -/
def parameterList (node : Node) : List Sketch :=
  node.parts.flatMap fun part =>
    if part.isFormalParameter then [part.parameter (some .parameter)]
    else if part.kind = "identifier" then [part.nameParameter]
    else []

/-- What one part of a type declaration contributes. The components of a record
are its fields. -/
def typeDeclPart (part : Node) : List Sketch :=
  if part.field = some "superclass" then part.typeEntries .superclass
  else if part.field = some "interfaces" ∨ part.kind = "extends_interfaces" then
    part.typeEntries .superinterface
  else if part.field = some "parameters" then
    (part.parts.filter isFormalParameter).map (·.parameter (some .member))
  else if part.field = some "body" then part.bodyEntries
  else []

/-- A named type declaration. -/
def typeDecl (node : Node) (role : Option Role) : Sketch :=
  .of node (.classDecl (node.fieldText "name") node.flavor) role
    (node.parts.flatMap typeDeclPart)

/-- What one part of a method declaration contributes. -/
def methodPart (part : Node) : List Sketch :=
  if part.field = some "type" then [.pending (some .returnType) part]
  else if part.field = some "parameters" then part.parameterList
  else if part.field = some "body" then [.pending (some .body) part]
  else []

/-- A method or constructor declaration. -/
def methodDecl (node : Node) (name : String) (role : Option Role) : Sketch :=
  .of node (.methodDecl name) role (node.parts.flatMap methodPart)

/-- The variables of a declaration, one for each declarator. All of them share
the type that stands in front. -/
def declarators (node : Node) (role : Option Role) : List Sketch :=
  (node.parts.filter fun part => part.field == some "declarator").map fun declarator =>
    .of declarator (.variableDecl (declarator.fieldText "name")) role
      (node.pendingField "type" .type ++ declarator.pendingField "value" .initialValue)

/-- A resource of a try statement: a declared variable, or any expression. -/
def resource (node : Node) (role : Option Role) : Sketch :=
  match node.childOf "name" with
  | none => .of node (.other "resource") role (node.pendingParts none)
  | some name =>
      .of node (.variableDecl name.text) role
        (node.pendingField "type" .type ++ node.pendingField "value" .initialValue)

/-- The variable of an enhanced for statement. It stands on its name, and its
text is its type and its name. -/
def loopVariable (node : Node) : List Sketch :=
  match node.childOf "name", node.childOf "type" with
  | none, _ => []
  | some name, none => [.of name (.variableDecl name.text) (some .loopVariable) []]
  | some name, some type =>
      [.built (.variableDecl name.text) (some .loopVariable) (type.text ++ " " ++ name.text)
        (name.firstRow + 1) [.pending (some .type) type]]

/-- One case label with its value and the statements that follow it. -/
def caseSketch (entry : Node × Option Node) (arrow : Bool) (statements : List Node) : Sketch :=
  .of entry.1 (.caseLabel (entry.2.map (·.text)) (!statements.isEmpty) arrow) none
    (entry.2.toList.map (.pending (some .label)) ++ statements.map (.pending none))

/-- The cases of a group: one for each label value, and all statements with the
last of them. -/
def caseSketches (arrow : Bool) (statements : List Node) :
    List (Node × Option Node) → List Sketch
  | [] => []
  | [entry] => [caseSketch entry arrow statements]
  | entry :: rest => caseSketch entry false [] :: caseSketches arrow statements rest

/-- What the parts of a switch block contribute. Labels and statements that stand in the block
itself are kept until the case is complete. -/
def switchEntries (labels statements : List Node) : List Node → List Sketch
  | [] => caseSketches false statements (labelEntries labels)
  | part :: rest =>
      if part.isCaseGroup then
        let (groupLabels, groupStatements) := part.parts.partition isCaseLabel
        caseSketches part.isArrowGroup groupStatements (labelEntries groupLabels) ++
          switchEntries labels statements rest
      else if part.isCaseLabel then
        if statements.isEmpty then switchEntries (labels ++ [part]) [] rest
        else
          caseSketches false statements (labelEntries labels) ++ switchEntries [part] [] rest
      else if labels.isEmpty then .pending none part :: switchEntries labels statements rest
      else switchEntries labels (statements ++ [part]) rest

/-- A switch statement or expression. -/
def switchSketch (node : Node) (role : Option Role) : Sketch :=
  let cases := match node.childOf "body" with
    | none => []
    | some block => switchEntries [] [] block.parts
  .of node .switch role (node.pendingCondition ++ cases)

/-- What one part of an instance creation contributes. -/
def creationPart (part : Node) : List Sketch :=
  if part.field = some "type" then [.pending (some .identifier) part]
  else if part.field = some "arguments" then part.pendingArguments
  else if part.field = some "type_arguments" then []
  else if part.kind = "class_body" then [part.anonymousClass none]
  else [.pending (some .object) part]

/-- The arguments of a call, if it has any. -/
def callArguments (node : Node) : List Sketch :=
  (node.childOf "arguments").toList.flatMap pendingArguments

/-- A method call. The called expression is the receiver and the name. -/
def invocation (node : Node) (role : Option Role) : Sketch :=
  .of node (.invocation node.selectText) role
    (node.pendingField "object" .object ++ node.pendingField "name" .name ++ node.callArguments)

/-- The call of another constructor at the start of a constructor. -/
def constructorCall (node : Node) (role : Option Role) : Sketch :=
  .of node (.invocation node.constructorText) role
    (node.pendingField "constructor" .name ++ node.callArguments)

/-- A dotted name or a field access: only what stands before the last dot is a child. -/
def memberSelect (node : Node) (role : Option Role) : Sketch :=
  .of node .memberSelect role (node.qualifier?.toList.map (.pending (some .object)))

/-- A lambda expression with its parameters and its body. -/
def lambda (node : Node) (role : Option Role) : Sketch :=
  let parameters := match node.childOf "parameters" with
    | none => []
    | some list => if list.kind = "identifier" then [list.nameParameter] else list.parameterList
  .of node .lambda role (parameters ++ node.pendingField "body" .body)

/-- A binary expression, its operands shown as the form asks. -/
def binary (form : ChainForm) (node : Node) (role : Option Role) : Sketch :=
  .of node (.other node.kind) role ((node.operands form).map (.pending none))

/-- What a grammar node contributes in a role. The role given from outside
goes before the one a parameter has of its own; fields are members always. -/
def sketch (form : ChainForm) (role : Option Role) (node : Node) : List Sketch :=
  if node.extra ∨ node.kind ∈ skippedRules then []
  else
    match node.kind with
    | "package_declaration" => [.of node .packageDecl role []]
    | "import_declaration" => [.of node .importDecl role []]
    | "class_declaration" | "interface_declaration" | "enum_declaration"
    | "record_declaration" | "annotation_type_declaration" => [node.typeDecl role]
    | "class_body" => [node.anonymousClass role]
    | "method_declaration" | "annotation_type_element_declaration" =>
        [node.methodDecl (node.fieldText "name") role]
    | "constructor_declaration" | "compact_constructor_declaration" =>
        [node.methodDecl Syntax.constructorName role]
    | "field_declaration" | "constant_declaration" => node.declarators (some .member)
    | "local_variable_declaration" => node.declarators role
    | "formal_parameter" | "spread_parameter" | "catch_formal_parameter" =>
        [node.parameter (role.or (some .parameter))]
    | "resource" => [node.resource role]
    | "block" | "constructor_body" => [.of node .block role (node.pendingParts none)]
    | "if_statement" =>
        [.of node .conditional role
          (node.pendingCondition ++ node.pendingField "consequence" .body ++
            node.pendingField "alternative" .alternative)]
    | "for_statement" =>
        [.of node .forLoop role (node.parts.map fun part => .pending part.forRole part)]
    | "enhanced_for_statement" =>
        [.of node .enhancedFor role
          (node.loopVariable ++ node.pendingField "value" .expression ++
            node.pendingField "body" .body)]
    | "while_statement" =>
        [.of node .whileLoop role (node.pendingCondition ++ node.pendingField "body" .body)]
    | "do_statement" =>
        [.of node .doWhileLoop role (node.pendingField "body" .body ++ node.pendingCondition)]
    | "switch_expression" | "switch_statement" => [node.switchSketch role]
    | "break_statement" => [.of node .breakExit role []]
    | "return_statement" => [.of node .returnExit role (node.pendingParts none)]
    | "object_creation_expression" =>
        [.of node .creation role (node.parts.flatMap creationPart)]
    | "method_invocation" => [node.invocation role]
    | "explicit_constructor_invocation" => [node.constructorCall role]
    | "identifier" => [.of node (.identifier node.text false) role []]
    | "type_identifier" => [.of node (.identifier node.text true) role []]
    | "generic_type" => [.of node .parameterizedType role (node.pendingParts none)]
    | "field_access" | "scoped_identifier" | "scoped_type_identifier" =>
        [node.memberSelect role]
    | "lambda_expression" => [node.lambda role]
    | "binary_expression" => [node.binary form role]
    | "this" => [.of node .thisRef role []]
    | "super" => [.of node .superRef role []]
    | _ => [.of node (.other node.kind) role (node.pendingParts none)]

/-- Lower a node, filling sketches down to a depth. -/
def lowerUpTo (form : ChainForm) : Nat → Option Role → Node → List Syntax.Node
  | 0, _, _ => []
  | depth + 1, role, node =>
      Sketch.fill.fillAll (lowerUpTo form depth) (node.sketch form role)

/-- The syntax nodes that a grammar node gives in a role. -/
def lower (form : ChainForm) (role : Option Role) (node : Node) : List Syntax.Node :=
  lowerUpTo form node.size role node

/-- The root of the syntax tree before ids are given. -/
def lowerRoot (form : ChainForm) (root : Node) : Syntax.Node where
  id := 0
  kind := .compilationUnit
  role := none
  text := root.text
  line := root.firstRow + 1
  children := root.parts.flatMap (lower form none)

end Node

end JavaStructure.Grammar
