/-
# Statement streams

The statements of a method, and its parameters, each as one line of items
between number signs. Types are referred to by the ids that they have in the
document.
-/

import JavaStructure.Model.Basic
import JavaStructure.Text.Decimal
import JavaStructure.Text.Entity

namespace JavaStructure.Interchange

/-- The document id of the first type. Lower ids are kept for the module. -/
def firstTypeId : Nat := 10

/-- The document id of a type. -/
def documentId (type : TypeId) : Nat :=
  firstTypeId + type

/-- A document id as text. -/
def idText (type : TypeId) : String :=
  Text.decimal (documentId type)

/-- The item for one statement. -/
def encodeStatement : Statement → String
  | .openScope condition => "\x7b" ++ Text.escapeText condition
  | .closeScope => "\x7d"
  | .call name target => "c=" ++ Text.escapeText name ++ "@" ++ idText target
  | .variableUse name owner type =>
      "v=" ++ Text.escapeText name ++ "@" ++ idText owner ++ "@" ++ idText type ++ "@t"

/-- The line for the statements of a method. -/
def encodeStatements (statements : List Statement) : String :=
  "#".intercalate (statements.map encodeStatement)

/-- The item for one parameter. Its two flags are never set. -/
def encodeParameter (parameter : Slot) : String :=
  parameter.name ++ "@" ++ idText parameter.type ++ "@f@f"

/-- The line for the parameters of a method. -/
def encodeParameters (parameters : List Slot) : String :=
  "#".intercalate (parameters.map encodeParameter)

end JavaStructure.Interchange
