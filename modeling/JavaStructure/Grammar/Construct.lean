/-
# The constructs of the grammar

What is read off a grammar node before it is lowered: names, texts, operands, and the parts
that stand in its fields.
-/

import JavaStructure.Grammar.Node
import JavaStructure.Syntax.Node

namespace JavaStructure.Grammar

open Syntax (Role Flavor)

/-- How a left-nested chain of one binary operator is shown: as one node with
all operands, so that long concatenations stay shallow, or as nested nodes. -/
inductive ChainForm where
  | flat
  | nested
  deriving DecidableEq

/-- The grammar rules that contribute nothing. -/
def skippedRules : List String :=
  ["modifiers", "annotation", "marker_annotation", "type_parameters", "throws", "dimensions",
    "receiver_parameter"]

namespace Node

/-- The text of the child in a field, empty where there is none. -/
def fieldText (node : Node) (field : String) : String :=
  match node.childOf field with
  | some child => child.text
  | none => ""

/-- The condition of a statement without its own pair of parentheses. -/
def condition? (node : Node) : Option Node :=
  (node.childOf "condition").map fun condition =>
    if condition.kind = "condition" ∨ condition.kind = "parenthesized_expression" then
      condition.parts.head?.getD condition
    else condition

/-- The operator of a binary expression. -/
def operator? (node : Node) : Option String :=
  (node.childOf "operator").map (·.kind)

/-- The parts of a node, with the parts of nested lists in the place of the lists. -/
def spreadParts (isList : Node → Bool) : Node → List Node
  | ⟨_, _, _, _, _, _, _, children⟩ => among isList children
where
  /-- The parts among the children of a node. -/
  among (isList : Node → Bool) : List Node → List Node
    | [] => []
    | child :: rest =>
        let here :=
          if !child.isProper then []
          else if isList child then spreadParts isList child
          else [child]
        here ++ among isList rest

/-- Whether a node is a list of types inside an extends or implements clause. -/
def isTypeList (node : Node) : Bool :=
  node.kind == "type_list" || node.kind == "interface_type_list"

/-- Whether a node is the second half of an enumeration's body, which belongs to the body
itself. -/
def isSecondHalf (node : Node) : Bool :=
  node.kind == "enum_body_declarations"

/-- The operands of a chain from the last to the first: the right operand, then those of the
left operand as long as it is a binary expression with the same operator. -/
def backwardOperands (operator : Option String) : Node → List Node
  | ⟨_, _, _, _, _, _, _, children⟩ =>
      (children.find? fun child => child.field == some "right").toList ++
        leftAmong operator children
where
  /-- The operands that the left operand among the children stands for. -/
  leftAmong (operator : Option String) : List Node → List Node
    | [] => []
    | child :: rest =>
        if child.field == some "left" then
          if child.kind = "binary_expression" ∧ child.operator? = operator then
            backwardOperands operator child
          else [child]
        else leftAmong operator rest

/-- The operands of a binary expression that a form shows. -/
def operands (form : ChainForm) (node : Node) : List Node :=
  match form with
  | .flat => (node.backwardOperands node.operator?).reverse
  | .nested => (node.childOf "left").toList ++ (node.childOf "right").toList

/-- Take one more part of a parameter into account: the type is the first part
that is neither a modifier nor a dimension nor the name, and a name that the
parameter does not have itself is that of a declarator. -/
def parameterStep (found : Option Node × Option Node) (part : Node) :
    Option Node × Option Node :=
  let (type, name) := found
  if part.kind = "variable_declarator" ∧ name.isNone then (type, part.childOf "name")
  else if part.kind ∈ ["modifiers", "dimensions", "identifier"] then (type, name)
  else (type.orElse fun _ => some part, name)

/-- The type and the name of a parameter. -/
def parameterTypeAndName (node : Node) : Option Node × Option Node :=
  node.parts.foldl parameterStep (node.childOf "type", node.childOf "name")

/-- Whether a node is an ordinary or a variable-arity parameter. -/
def isFormalParameter (node : Node) : Bool :=
  node.kind == "formal_parameter" || node.kind == "spread_parameter"

/-- The flavour of a type declaration. -/
def flavor (node : Node) : Flavor :=
  match node.kind with
  | "interface_declaration" => .interfaceType
  | "enum_declaration" => .enumType
  | "record_declaration" => .recordType
  | "annotation_type_declaration" => .annotationType
  | _ => .classType

/-- The role of a part of a for statement. -/
def forRole (part : Node) : Option Role :=
  match part.field with
  | some "init" => some .initialValue
  | some "condition" => some .condition
  | some "update" => some .expression
  | some "body" => some .body
  | _ => none

/-- The label values of a group in order, each with the node it stands on. A
label without values is the default. -/
def labelEntries (labels : List Node) : List (Node × Option Node) :=
  labels.flatMap fun label =>
    match label.parts with
    | [] => [(label, none)]
    | values => values.map fun value => (value, some value)

/-- Whether a node is a label of a switch. -/
def isCaseLabel (node : Node) : Bool :=
  node.kind == "switch_label"

/-- Whether a node is a group of labels and statements in a switch. -/
def isCaseGroup (node : Node) : Bool :=
  node.kind == "switch_block_statement_group" || node.kind == "switch_rule"

/-- Whether a group of a switch block has the arrow form. -/
def isArrowGroup (group : Node) : Bool :=
  group.kind == "switch_rule" || group.children.any fun child => child.kind == "->"

/-- The called expression as written. -/
def selectText (node : Node) : String :=
  match node.childOf "object", node.childOf "name" with
  | some object, some name => object.text ++ "." ++ name.text
  | none, some name => name.text
  | _, none => node.text

/-- The constructor that another one calls, as written. -/
def constructorText (node : Node) : String :=
  match node.childOf "constructor" with
  | some target => target.text
  | none => "super"

/-- What stands before the last dot of a dotted name or a field access. The selected name is the
end of the text. -/
def qualifier? (node : Node) : Option Node :=
  (node.childOf "object").orElse fun _ =>
    (node.childOf "scope").orElse fun _ => node.parts.head?

end Node

end JavaStructure.Grammar
