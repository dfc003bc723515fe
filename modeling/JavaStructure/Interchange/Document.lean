/-
# The interchange document

The document in which a model is handed to diagram tools. A model gives a list
of elements, one for every type in registry order, and after the element of a
type one for each of its relations. The elements give tags, and each tag is a
line.
-/

import JavaStructure.Interchange.Stream

namespace JavaStructure.Interchange

/-- An operation of a declared class. -/
structure Operation where
  name : String
  parameters : List Slot
  statements : List Statement

/-- An element of a document. -/
inductive Element where
  /-- A type that the module only mentions. -/
  | mentioned (id : Nat) (name : String)
  /-- A type that the module declares. -/
  | declared (id : Nat) (name : String) (attributes : List Slot) (operations : List Operation)
  | generalization (id child parent : Nat)

/-- A document: what is said about the module, and the elements in order. -/
structure Document where
  modulePath : String
  moduleLines : Nat
  elements : List Element

/-- The id of the first relation. Ids go on counting over the whole document. -/
def firstRelationId : Nat := 100000

/-- The element of a type. -/
def typeElement (model : Model) (id : TypeId) (entry : TypeEntry) : Element :=
  if entry.moduleDefined then
    .declared (documentId id) entry.name entry.members
      ((model.methodsOf id).map fun method => ⟨method.name, method.parameters, method.statements⟩)
  else .mentioned (documentId id) entry.name

/-- The elements of relations, under ids from `next` on. -/
def relationElements (next : Nat) (child : TypeId) : List Relation → List Element
  | [] => []
  | relation :: rest =>
      .generalization next (documentId child) (documentId relation.target) ::
        relationElements (next + 1) child rest

/-- The elements of types from a position on, the relations of each type behind
it. `next` is the id of the next relation. -/
def elementsFrom (model : Model) (next : Nat) (id : TypeId) : List TypeEntry → List Element
  | [] => []
  | entry :: rest =>
      typeElement model id entry :: relationElements next id entry.relations ++
        elementsFrom model (next + entry.relations.length) (id + 1) rest

/-- The document of a model. Separators in the path of the module are slashes. -/
def Document.ofModel (model : Model) : Document where
  modulePath := Text.mapChars (·.map fun c => if c = '\\' then '/' else c) model.moduleInfo.path
  moduleLines := model.moduleInfo.lineCount
  elements := elementsFrom model firstRelationId 0 model.types

/-- How a tag bounds its element. -/
inductive TagForm where
  | opening
  | closing
  | empty
  deriving DecidableEq

/-- A tag with its attributes, indented by its level. -/
structure Tag where
  level : Nat
  form : TagForm
  name : String
  attributes : List (String × String) := []

namespace Tag

/-- An attribute as it is written inside a tag. -/
def attributeText (pair : String × String) : String :=
  " " ++ pair.1 ++ "=\"" ++ pair.2 ++ "\""

/-- The line of a tag. A blank sets the end of a tag off from attributes. -/
def line (tag : Tag) : String :=
  let attributes := String.join (tag.attributes.map attributeText)
  let body := match tag.form with
    | .opening => "<" ++ tag.name ++ attributes ++ (if tag.attributes.isEmpty then ">" else " >")
    | .closing => "</" ++ tag.name ++ ">"
    | .empty => "<" ++ tag.name ++ attributes ++ " />"
  .ofList (List.replicate tag.level ' ') ++ body

end Tag

/-- The tag of an attribute of a class. -/
def attributeTag (slot : Slot) : Tag :=
  { level := 3, form := .empty, name := "Attr"
    attributes := [("name", slot.name), ("type", idText slot.type)] }

/-- The tags of an operation. Its parameters are left out if it has none. -/
def operationTags (operation : Operation) : List Tag :=
  let parameters : List Tag :=
    if operation.parameters.isEmpty then []
    else
      [{ level := 4, form := .empty, name := "Parms"
         attributes := [("list", encodeParameters operation.parameters)] }]
  [{ level := 3, form := .opening, name := "Oper"
     attributes :=
      [("name", Text.escapeName operation.name), ("const", "f"), ("virt", "f"), ("line", "1"),
        ("retconst", "f"), ("retref", "f")] }] ++
    parameters ++
    [{ level := 4, form := .empty, name := "Statements"
       attributes := [("list", encodeStatements operation.statements)] },
      { level := 3, form := .closing, name := "Oper" }]

/-- The tags of an element. -/
def Element.tags : Element → List Tag
  | .mentioned id name =>
      [{ level := 2, form := .empty, name := "Class"
         attributes := [("id", Text.decimal id), ("name", Text.escapeName name)] }]
  | .declared id name attributes operations =>
      [{ level := 2, form := .opening, name := "Class"
         attributes :=
          [("id", Text.decimal id), ("name", Text.escapeName name), ("module", "1"),
            ("line", "1")] }] ++
        attributes.map attributeTag ++ operations.flatMap operationTags ++
        [{ level := 2, form := .closing, name := "Class" }]
  | .generalization id child parent =>
      [{ level := 2, form := .empty, name := "Genrl"
         attributes :=
          [("id", Text.decimal id), ("child", Text.decimal child),
            ("parent", Text.decimal parent)] }]

namespace Document

/-- The tag of the module. -/
def moduleTag (document : Document) : Tag :=
  { level := 2, form := .empty, name := "Module"
    attributes :=
      [("id", "1"), ("module", document.modulePath),
        ("moduleLines", Text.decimal document.moduleLines)] }

/-- All tags of a document, in order. -/
def tags (document : Document) : List Tag :=
  [{ level := 0, form := .opening, name := "XMI"
     attributes :=
      [("xmi.version", "1.2"), ("xmlns:UML", "http://schema.omg.org/spec/UML/1.3")] },
    { level := 1, form := .opening, name := "XMI.content" },
    document.moduleTag] ++
    document.elements.flatMap Element.tags ++
    [{ level := 1, form := .closing, name := "XMI.content" },
      { level := 0, form := .closing, name := "XMI" }]

/-- The text of a document, every line ended by a line feed. -/
def render (document : Document) : String :=
  String.join (("<?xml version=\"1.0\" encoding=\"UTF-8\"?>" ::
    document.tags.map Tag.line).map (· ++ "\n"))

end Document

/-- The document text of a model. -/
def renderModel (model : Model) : String :=
  (Document.ofModel model).render

end JavaStructure.Interchange
