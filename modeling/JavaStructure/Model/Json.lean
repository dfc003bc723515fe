/-
# Models in JSON

The dumped form of a model. A variant without data is its name, any other is an
object with its name as only key.
-/

import JavaStructure.Json.Pretty
import JavaStructure.Model.Basic

namespace JavaStructure

/-- The dumped name of a kind of relation. -/
def RelationKind.title : RelationKind → String
  | .extension => "Extends"
  | .implementation => "Implements"

/-- The dumped form of a relation. -/
def Relation.toJson (relation : Relation) : Json :=
  .object [("kind", .string relation.kind.title), ("target", .number relation.target)]

/-- The dumped form of a named slot. -/
def Slot.toJson (slot : Slot) : Json :=
  .object [("name", .string slot.name), ("ty", .number slot.type)]

/-- The dumped form of a statement. -/
def Statement.toJson : Statement → Json
  | .openScope condition =>
      .object [("OpenScope", .object [("condition", .string condition)])]
  | .closeScope => .string "CloseScope"
  | .call name target =>
      .object [("Call", .object [("name", .string name), ("target", .number target)])]
  | .variableUse name owner type =>
      .object [("VarRef", .object
        [("name", .string name), ("class", .number owner), ("var_type", .number type)])]

/-- The dumped form of an origin. -/
def Origin.toJson : Origin → Json
  | .node id => .object [("Node", .number id)]
  | .synthesized => .string "Synthesized"

/-- The dumped form of a method. -/
def Method.toJson (method : Method) : Json :=
  .object
    [("owner", .number method.owner), ("name", .string method.name),
      ("origin", method.origin.toJson), ("params", .array (method.parameters.map Slot.toJson)),
      ("statements", .array (method.statements.map Statement.toJson))]

/-- The dumped form of a type. -/
def TypeEntry.toJson (entry : TypeEntry) : Json :=
  .object
    [("name", .string entry.name), ("module_defined", .bool entry.moduleDefined),
      ("member_vars", .array (entry.members.map Slot.toJson)),
      ("methods", .array (entry.methods.map .number)),
      ("relations", .array (entry.relations.map Relation.toJson))]

/-- The dumped form of a module. -/
def ModuleInfo.toJson (moduleInfo : ModuleInfo) : Json :=
  .object
    [("path", .string moduleInfo.path), ("package", .string moduleInfo.packageName),
      ("line_count", .number moduleInfo.lineCount),
      ("imports", .array (moduleInfo.imports.map .string))]

/-- The dumped form of a model. -/
def Model.toJson (model : Model) : Json :=
  .object
    [("module", model.moduleInfo.toJson), ("types", .array (model.types.map TypeEntry.toJson)),
      ("methods", .array (model.methods.map Method.toJson))]

end JavaStructure
