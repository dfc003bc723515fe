/-
# Syntax trees in JSON

The dumped form of a syntax tree. A variant without data is its name, any other
is an object with its name as only key.
-/

import JavaStructure.Json.Pretty
import JavaStructure.Syntax.Node

namespace JavaStructure.Syntax

/-- The dumped name of a flavour. -/
def Flavor.title : Flavor → String
  | .classType => "Class"
  | .interfaceType => "Interface"
  | .enumType => "Enum"
  | .recordType => "Record"
  | .annotationType => "Annotation"

/-- The dumped name of a role. -/
def Role.title : Role → String
  | .superclass => "Extends"
  | .superinterface => "Implements"
  | .member => "Member"
  | .type => "Type"
  | .returnType => "ReturnType"
  | .parameter => "Parameter"
  | .body => "Body"
  | .condition => "Condition"
  | .loopVariable => "Variable"
  | .expression => "Expression"
  | .identifier => "Identifier"
  | .object => "Object"
  | .name => "Name"
  | .argument => "Argument"
  | .initialValue => "Init"
  | .label => "Label"
  | .alternative => "Alternative"

/-- The dumped form of a construct. -/
def Kind.toJson : Kind → Json
  | .compilationUnit => .string "CompilationUnit"
  | .packageDecl => .string "Package"
  | .importDecl => .string "Import"
  | .classDecl name flavor =>
      .object [("ClassDecl", .object
        [("name", .string name), ("flavor", .string flavor.title)])]
  | .methodDecl name => .object [("MethodDecl", .object [("name", .string name)])]
  | .variableDecl name => .object [("Variable", .object [("name", .string name)])]
  | .block => .string "Block"
  | .conditional => .string "If"
  | .forLoop => .string "ForLoop"
  | .enhancedFor => .string "EnhancedForLoop"
  | .whileLoop => .string "WhileLoop"
  | .doWhileLoop => .string "DoWhileLoop"
  | .switch => .string "Switch"
  | .caseLabel label hasBody arrow =>
      .object [("Case", .object
        [("label", .ofOption label), ("has_body", .bool hasBody), ("rule", .bool arrow)])]
  | .breakExit => .string "Break"
  | .returnExit => .string "Return"
  | .creation => .string "NewClass"
  | .invocation select => .object [("MethodInvocation", .object [("select", .string select)])]
  | .identifier name typePosition =>
      .object [("Identifier", .object
        [("name", .string name), ("type_position", .bool typePosition)])]
  | .parameterizedType => .string "ParameterizedType"
  | .memberSelect => .string "MemberSelect"
  | .lambda => .string "Lambda"
  | .thisRef => .string "This"
  | .superRef => .string "Super"
  | .other rule => .object [("Other", .string rule)]

/-- The dumped form of a node with all nodes below it. -/
def Node.toJson : Node → Json
  | ⟨id, kind, role, text, line, children⟩ =>
      .object
        [("id", .number id), ("kind", kind.toJson), ("field", .ofOption (role.map Role.title)),
          ("text", .string text), ("line", .number line),
          ("children", .array (toJsonAll children))]
where
  /-- The dumped forms of a list of trees. -/
  toJsonAll : List Node → List Json
    | [] => []
    | node :: rest => node.toJson :: toJsonAll rest

/-- The dumped form of a compilation unit. -/
def CompilationUnit.toJson (unit : CompilationUnit) : Json :=
  .object [("file_path", .string unit.path), ("root", unit.root.toJson)]

end JavaStructure.Syntax
