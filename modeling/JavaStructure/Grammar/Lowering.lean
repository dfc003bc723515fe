/-
# From the grammar tree to the syntax tree

How a grammar tree is turned into a syntax tree. A node takes its id from a counter where it
is made, which is before anything below it is lowered. What is lowered is put behind what was
lowered before it, so children stand in the order in which they were made. Each construct is
described with the lowering of its parts left open. A part is always smaller than the node it
is part of, so the size of the tree bounds the depth of the lowering.
-/

import JavaStructure.Grammar.Construct

namespace JavaStructure.Grammar

open Syntax (Kind Role)

/-- A computation that takes ids from a counter. -/
abbrev Counted := StateM Nat

namespace Counted

/-- Take the next id. -/
def nextId : Counted Nat :=
  modifyGet fun next => (next, next + 1)

/-- A single node as a list. -/
def single (program : Counted Syntax.Node) : Counted (List Syntax.Node) := do
  return [← program]

/-- Give a node a role. -/
def inRole (role : Role) (program : Counted Syntax.Node) : Counted Syntax.Node := do
  return { ← program with role := some role }

/-- Lower some nodes, then the nodes that stand behind them. -/
instance : Append (Counted (List Syntax.Node)) where
  append front back := do
    let before ← front
    let after ← back
    return before ++ after

end Counted

open Counted (nextId single inRole)

/-- How a grammar node is lowered in a role. -/
abbrev Lowerer := Option Role → Node → Counted (List Syntax.Node)

namespace Node

/-- Make a node on the text of a grammar node, with nothing below it. -/
def make (node : Node) (kind : Kind) : Counted Syntax.Node := do
  let id ← nextId
  return { id, kind, role := none, text := node.text, line := node.firstRow + 1, children := [] }

/-- Make a node, then lower what is below it. -/
def grow (node : Node) (kind : Kind) (below : Counted (List Syntax.Node)) :
    Counted Syntax.Node := do
  let made ← node.make kind
  let children ← below
  return { made with children }

section Constructs

variable (lower : Lowerer)

/-- Lower several nodes in one role. -/
def lowerEach (role : Option Role) (nodes : List Node) : Counted (List Syntax.Node) :=
  nodes.flatMapM (lower role)

/-- Lower a node that may be missing. -/
def lowerAny (role : Role) : Option Node → Counted (List Syntax.Node)
  | some node => lower (some role) node
  | none => return []

/-- Lower the child in a field. -/
def lowerField (node : Node) (field : String) (role : Role) : Counted (List Syntax.Node) :=
  lowerAny lower role (node.childOf field)

/-- Lower the condition of a statement. -/
def lowerCondition (node : Node) : Counted (List Syntax.Node) :=
  lowerAny lower .condition node.condition?

/-- Lower a node that shows all its parts. -/
def lowerGeneric (node : Node) (kind : Kind) : Counted Syntax.Node :=
  node.grow kind (lowerEach lower none node.parts)

/-- Lower a binary expression, its operands shown as the form asks. -/
def lowerBinary (form : ChainForm) (node : Node) : Counted Syntax.Node :=
  node.grow (.other node.kind) (lowerEach lower none (node.operands form))

/-- Lower the types of an extends or implements clause, those inside nested lists included. -/
def lowerTypeList (role : Role) (node : Node) : Counted (List Syntax.Node) :=
  lowerEach lower (some role) (node.spreadParts isTypeList)

/-- Lower the members of a type body. -/
def lowerBody (node : Node) : Counted (List Syntax.Node) :=
  lowerEach lower none (node.spreadParts isSecondHalf)

/-- Lower the body of an instance creation or of an enumeration constant. -/
def lowerAnonymous (node : Node) : Counted Syntax.Node :=
  node.grow (.classDecl "" .classType) (lowerBody lower node)

/-- Lower a formal, variable-arity or catch parameter. A catch parameter has a type child for
each alternative. -/
def lowerParameter (node : Node) : Counted Syntax.Node :=
  let (type, name) := node.parameterTypeAndName
  let types := match type with
    | some type =>
        if type.kind = "catch_type" then lowerEach lower (some .type) type.parts
        else lower (some .type) type
    | none => return []
  inRole .parameter (node.grow (.variableDecl ((name.map (·.text)).getD "")) types)

/-- Lower a bare name that stands for a parameter. -/
def lowerNameParameter (node : Node) : Counted Syntax.Node :=
  inRole .parameter (node.make (.variableDecl node.text))

/-- Lower the parameters of a parameter list. -/
def lowerParameters (node : Node) : Counted (List Syntax.Node) :=
  node.parts.flatMapM fun part =>
    if part.isFormalParameter then single (lowerParameter lower part)
    else if part.kind = "identifier" then single part.lowerNameParameter
    else return []

/-- Lower one part of a type declaration. The components of a record are its fields. -/
def lowerTypeDeclPart (part : Node) : Counted (List Syntax.Node) :=
  if part.field = some "superclass" then lowerTypeList lower .superclass part
  else if part.field = some "interfaces" ∨ part.kind = "extends_interfaces" then
    lowerTypeList lower .superinterface part
  else if part.field = some "parameters" then
    (part.parts.filter isFormalParameter).flatMapM fun component =>
      single (inRole .member (lowerParameter lower component))
  else if part.field = some "body" then lowerBody lower part
  else return []

/-- Lower a named type declaration. -/
def lowerTypeDecl (node : Node) : Counted Syntax.Node :=
  node.grow (.classDecl (node.fieldText "name") node.flavor)
    (node.parts.flatMapM (lowerTypeDeclPart lower))

/-- Lower one part of a method declaration. -/
def lowerMethodPart (part : Node) : Counted (List Syntax.Node) :=
  if part.field = some "type" then lower (some .returnType) part
  else if part.field = some "parameters" then lowerParameters lower part
  else if part.field = some "body" then lower (some .body) part
  else return []

/-- Lower a method or constructor declaration. -/
def lowerMethod (node : Node) (name : String) : Counted Syntax.Node :=
  node.grow (.methodDecl name) (node.parts.flatMapM (lowerMethodPart lower))

/-- Lower the variables of a declaration, one for each declarator. The type that stands in
front is lowered again for each of them. -/
def lowerDeclarators (node : Node) (role : Option Role) : Counted (List Syntax.Node) :=
  (node.parts.filter fun part => part.field == some "declarator").flatMapM fun declarator => do
    let declared ← declarator.grow (.variableDecl (declarator.fieldText "name"))
      (lowerField lower node "type" .type ++ lowerField lower declarator "value" .initialValue)
    return [{ declared with role }]

/-- Lower a resource of a try statement: a declared variable, or any expression. -/
def lowerResource (node : Node) : Counted Syntax.Node :=
  match node.childOf "name" with
  | none => lowerGeneric lower node (.other "resource")
  | some name =>
      node.grow (.variableDecl name.text)
        (lowerField lower node "type" .type ++ lowerField lower node "value" .initialValue)

/-- Lower the variable of an enhanced for statement. It stands on its name, and its text is its
type and its name. -/
def lowerLoopVariable (node : Node) : Counted (List Syntax.Node) :=
  match node.childOf "name" with
  | none => return []
  | some name => do
      let made ← name.make (.variableDecl name.text)
      match node.childOf "type" with
      | none => return [{ made with role := some .loopVariable }]
      | some type =>
          let children ← lower (some .type) type
          return [{ made with
            role := some .loopVariable, text := type.text ++ " " ++ name.text, children }]

/-- Lower one case label with its value and the statements that follow it. -/
def lowerCase (entry : Node × Option Node) (arrow : Bool) (statements : List Node) :
    Counted Syntax.Node :=
  entry.1.grow (.caseLabel (entry.2.map (·.text)) (!statements.isEmpty) arrow)
    (lowerAny lower .label entry.2 ++ lowerEach lower none statements)

/-- Lower the cases of a group: one for each label value, and all statements with the last of
them. -/
def lowerCases (arrow : Bool) (statements : List Node) :
    List (Node × Option Node) → Counted (List Syntax.Node)
  | [] => return []
  | [entry] => single (lowerCase lower entry arrow statements)
  | entry :: rest => single (lowerCase lower entry false []) ++ lowerCases arrow statements rest

/-- Lower the parts of a switch block. Labels and statements that stand in the block itself are
kept until the case is complete. -/
def lowerSwitchParts (labels statements : List Node) : List Node → Counted (List Syntax.Node)
  | [] => lowerCases lower false statements (labelEntries labels)
  | part :: rest =>
      if part.isCaseGroup then
        let (groupLabels, groupStatements) := part.parts.partition isCaseLabel
        lowerCases lower part.isArrowGroup groupStatements (labelEntries groupLabels) ++
          lowerSwitchParts labels statements rest
      else if part.isCaseLabel then
        if statements.isEmpty then lowerSwitchParts (labels ++ [part]) [] rest
        else
          lowerCases lower false statements (labelEntries labels) ++
            lowerSwitchParts [part] [] rest
      else if labels.isEmpty then lower none part ++ lowerSwitchParts labels statements rest
      else lowerSwitchParts labels (statements ++ [part]) rest

/-- Lower a switch statement or expression. -/
def lowerSwitch (node : Node) : Counted Syntax.Node :=
  let cases := match node.childOf "body" with
    | none => return []
    | some block => lowerSwitchParts lower [] [] block.parts
  node.grow .switch (lowerCondition lower node ++ cases)

/-- Lower one part of an instance creation. -/
def lowerCreationPart (part : Node) : Counted (List Syntax.Node) :=
  if part.field = some "type" then lower (some .identifier) part
  else if part.field = some "arguments" then lowerEach lower (some .argument) part.parts
  else if part.field = some "type_arguments" then return []
  else if part.kind = "class_body" then single (lowerAnonymous lower part)
  else lower (some .object) part

/-- Lower the arguments of a call, if it has any. -/
def lowerArguments (node : Node) : Counted (List Syntax.Node) :=
  match node.childOf "arguments" with
  | some list => lowerEach lower (some .argument) list.parts
  | none => return []

/-- Lower a method call. -/
def lowerInvocation (node : Node) : Counted Syntax.Node :=
  node.grow (.invocation node.selectText)
    (lowerField lower node "object" .object ++ lowerField lower node "name" .name ++
      lowerArguments lower node)

/-- Lower the call of another constructor at the start of a constructor. -/
def lowerConstructorCall (node : Node) : Counted Syntax.Node :=
  node.grow (.invocation node.constructorText)
    (lowerField lower node "constructor" .name ++ lowerArguments lower node)

/-- Lower a dotted name or a field access. -/
def lowerMemberSelect (node : Node) : Counted Syntax.Node :=
  node.grow .memberSelect (lowerAny lower .object node.qualifier?)

/-- Lower a lambda expression with its parameters and its body. -/
def lowerLambda (node : Node) : Counted Syntax.Node :=
  let parameters := match node.childOf "parameters" with
    | none => return []
    | some list =>
        if list.kind = "identifier" then single list.lowerNameParameter
        else lowerParameters lower list
  node.grow .lambda (parameters ++ lowerField lower node "body" .body)

/-- Lower a grammar node whose construct gives one syntax node. -/
def lowerConstruct (form : ChainForm) (node : Node) : Counted Syntax.Node :=
  match node.kind with
  | "package_declaration" => node.make .packageDecl
  | "import_declaration" => node.make .importDecl
  | "class_declaration" | "interface_declaration" | "enum_declaration"
  | "record_declaration" | "annotation_type_declaration" => lowerTypeDecl lower node
  | "class_body" => lowerAnonymous lower node
  | "method_declaration" | "annotation_type_element_declaration" =>
      lowerMethod lower node (node.fieldText "name")
  | "constructor_declaration" | "compact_constructor_declaration" =>
      lowerMethod lower node Syntax.constructorName
  | "formal_parameter" | "spread_parameter" | "catch_formal_parameter" =>
      lowerParameter lower node
  | "resource" => lowerResource lower node
  | "block" | "constructor_body" => lowerGeneric lower node .block
  | "if_statement" =>
      node.grow .conditional
        (lowerCondition lower node ++ lowerField lower node "consequence" .body ++
          lowerField lower node "alternative" .alternative)
  | "for_statement" =>
      node.grow .forLoop (node.parts.flatMapM fun part => lower part.forRole part)
  | "enhanced_for_statement" =>
      node.grow .enhancedFor
        (lowerLoopVariable lower node ++ lowerField lower node "value" .expression ++
          lowerField lower node "body" .body)
  | "while_statement" =>
      node.grow .whileLoop (lowerCondition lower node ++ lowerField lower node "body" .body)
  | "do_statement" =>
      node.grow .doWhileLoop (lowerField lower node "body" .body ++ lowerCondition lower node)
  | "switch_expression" | "switch_statement" => lowerSwitch lower node
  | "break_statement" => node.make .breakExit
  | "return_statement" => lowerGeneric lower node .returnExit
  | "object_creation_expression" =>
      node.grow .creation (node.parts.flatMapM (lowerCreationPart lower))
  | "method_invocation" => lowerInvocation lower node
  | "explicit_constructor_invocation" => lowerConstructorCall lower node
  | "identifier" => node.make (.identifier node.text false)
  | "type_identifier" => node.make (.identifier node.text true)
  | "generic_type" => lowerGeneric lower node .parameterizedType
  | "field_access" | "scoped_identifier" | "scoped_type_identifier" =>
      lowerMemberSelect lower node
  | "lambda_expression" => lowerLambda lower node
  | "binary_expression" => lowerBinary lower form node
  | "this" => node.make .thisRef
  | "super" => node.make .superRef
  | _ => lowerGeneric lower node (.other node.kind)

/-- Lower a grammar node in a role. The role given from outside goes before the one a parameter
has of its own; fields are members always. -/
def lowerWith (form : ChainForm) (role : Option Role) (node : Node) :
    Counted (List Syntax.Node) :=
  if node.extra ∨ node.kind ∈ skippedRules then return []
  else if node.kind = "field_declaration" ∨ node.kind = "constant_declaration" then
    lowerDeclarators lower node (some .member)
  else if node.kind = "local_variable_declaration" then lowerDeclarators lower node role
  else do
    let lowered ← lowerConstruct lower form node
    return [{ lowered with role := role.or lowered.role }]

end Constructs

/-- Lower a grammar node down to a depth. -/
def lowerInto (form : ChainForm) : Nat → Lowerer
  | 0, _, _ => return []
  | depth + 1, role, node => lowerWith (lowerInto form depth) form role node

/-- Lower the tree of a whole source file. -/
def lowerProgram (form : ChainForm) (root : Node) : Counted Syntax.Node :=
  root.grow .compilationUnit (root.parts.flatMapM fun part => lowerInto form part.size none part)

/-- The syntax tree of a whole source file, its ids counted from zero. -/
def lowerUnit (form : ChainForm) (root : Node) : Syntax.Node :=
  ((root.lowerProgram form).run 0).1

/-- The last line of the last declaration in a file, zero if there is none. -/
def lineCount (root : Node) : Nat :=
  match root.parts.getLast? with
  | some last => last.lastRow + 1
  | none => 0

end Node

end JavaStructure.Grammar
