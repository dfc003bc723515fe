/-
# Documents as trees

What a reader of markup gets from the text of a document. Where the texts that are not escaped
hold no marks, the text is well formed, and what is read is a tree with the elements of the
document and their texts as they were meant.
-/

import JavaStructure.Proofs.Building.NameSources
import JavaStructure.Proofs.Interchange.DocumentValues

namespace JavaStructure.Interchange

open Syntax (Node)
open Markup (value? spoken IsAllowed Tells Spells)
open Text (IsValue IsUnmarked RefersOnly)

/-- An attribute of a class as it is meant to be read. -/
def attributeTree (slot : Slot) : Markup.Element :=
  { name := "Attr", attributes := [("name", spoken slot.name), ("type", idText slot.type)] }

/-- An operation as it is meant to be read. -/
def operationTree (operation : Operation) : Markup.Element :=
  let parameters : List Markup.Element :=
    if operation.parameters.isEmpty then []
    else
      [{ name := "Parms"
         attributes := [("list", spoken (encodeParameters operation.parameters))] }]
  { name := "Oper"
    attributes :=
      [("name", spoken operation.name), ("const", "f"), ("virt", "f"), ("line", "1"),
        ("retconst", "f"), ("retref", "f")]
    children := parameters ++
      [{ name := "Statements"
         attributes := [("list", spoken (plainStatements operation.statements))] }] }

/-- An element as it is meant to be read. -/
def Element.tree : Element → Markup.Element
  | .mentioned id name =>
      { name := "Class", attributes := [("id", Text.decimal id), ("name", spoken name)] }
  | .declared id name attributes operations =>
      { name := "Class"
        attributes :=
          [("id", Text.decimal id), ("name", spoken name), ("module", "1"), ("line", "1")]
        children := attributes.map attributeTree ++ operations.map operationTree }
  | .generalization id child parent =>
      { name := "Genrl"
        attributes :=
          [("id", Text.decimal id), ("child", Text.decimal child),
            ("parent", Text.decimal parent)] }

/-- What is said about the module as it is meant to be read. -/
def Document.moduleTree (document : Document) : Markup.Element :=
  { name := "Module"
    attributes :=
      [("id", "1"), ("module", spoken document.modulePath),
        ("moduleLines", Text.decimal document.moduleLines)] }

/-- A document as it is meant to be read. -/
def Document.tree (document : Document) : Markup.Element :=
  { name := "XMI"
    attributes :=
      [("xmi.version", "1.2"), ("xmlns:UML", "http://schema.omg.org/spec/UML/1.3")]
    children :=
      [{ name := "XMI.content"
         children := document.moduleTree :: document.elements.map Element.tree }] }

/-- A name of a type or an operation that is read from where it is written. -/
def IsPlainName (name : String) : Prop :=
  '"' ∉ name.toList ∧ '&' ∉ name.toList ∧ IsAllowed name

/-- A name of an attribute or a parameter that is read from where it is written. -/
def IsPlainSlot (slot : Slot) : Prop :=
  IsUnmarked slot.name ∧ IsAllowed slot.name

instance (name : String) : Decidable (IsPlainName name) :=
  inferInstanceAs (Decidable (_ ∧ _ ∧ _))

instance (slot : Slot) : Decidable (IsPlainSlot slot) :=
  inferInstanceAs (Decidable (_ ∧ _))

theorem IsPlainName.value? {name : String} (plain : IsPlainName name) :
    value? (Text.escapeName name) = some (spoken name) :=
  Markup.value?_escapeName plain.1 plain.2.1 plain.2.2

theorem tells_attribute {slot : Slot} (plain : IsPlainSlot slot) :
    Tells [attributeTag slot] [attributeTree slot] :=
  Markup.tells_empty rfl <| .of_keys "Attr" ["name", "type"] rfl rfl (by decide) (by decide)
    (.cons ⟨rfl, Markup.value?_unmarked plain.1 plain.2⟩ (.cons ⟨rfl, value?_decimal _⟩ .nil))

theorem tells_parameters {parameters : List Slot}
    (plain : ∀ slot ∈ parameters, IsPlainSlot slot) :
    Tells [{ level := 4, form := .empty, name := "Parms"
             attributes := [("list", encodeParameters parameters)] }]
      [{ name := "Parms", attributes := [("list", spoken (encodeParameters parameters))] }] := by
  have unmarked := isUnmarked_encodeParameters fun slot listed => (plain slot listed).1
  have allowed : IsAllowed (encodeParameters parameters) :=
    forall_mem_encodeParameters (fun _ digit => isAllowed_of_isDigit digit)
      (List.all_eq_true.mp rfl) fun slot listed => (plain slot listed).2
  exact Markup.tells_empty rfl <| .of_keys "Parms" ["list"] rfl rfl (by decide) (by decide)
    (.cons ⟨rfl, Markup.value?_unmarked unmarked allowed⟩ .nil)

/-- A list of statements is read whatever its texts hold, as long as XML allows it. -/
theorem value?_encodeStatements {statements : List Statement}
    (allowed : ∀ statement ∈ statements, IsAllowed statement.text) :
    value? (encodeStatements statements) = some (spoken (plainStatements statements)) := by
  rw [encodeStatements_eq]
  exact Markup.value?_escapeText <|
    forall_mem_plainStatements (fun _ digit => isAllowed_of_isDigit digit)
      (List.all_eq_true.mp rfl) allowed

theorem tells_statements {statements : List Statement}
    (allowed : ∀ statement ∈ statements, IsAllowed statement.text) :
    Tells [{ level := 4, form := .empty, name := "Statements"
             attributes := [("list", encodeStatements statements)] }]
      [{ name := "Statements"
         attributes := [("list", spoken (plainStatements statements))] }] :=
  Markup.tells_empty rfl <| .of_keys "Statements" ["list"] rfl rfl (by decide) (by decide)
    (.cons ⟨rfl, value?_encodeStatements allowed⟩ .nil)

theorem tells_operation {operation : Operation} (name : IsPlainName operation.name)
    (parameters : ∀ slot ∈ operation.parameters, IsPlainSlot slot)
    (allowed : ∀ statement ∈ operation.statements, IsAllowed statement.text) :
    Tells (operationTags operation) [operationTree operation] := by
  let opening : Tag :=
    { level := 3, form := .opening, name := "Oper"
      attributes :=
        [("name", Text.escapeName operation.name), ("const", "f"), ("virt", "f"), ("line", "1"),
          ("retconst", "f"), ("retref", "f")] }
  let closing : Tag := { level := 3, form := .closing, name := "Oper" }
  have constants : value? "f" = some "f" ∧ value? "1" = some "1" := by decide
  have spells : Spells opening (operationTree operation).attributes :=
    .of_keys "Oper" ["name", "const", "virt", "line", "retconst", "retref"] rfl rfl (by decide)
      (by decide) (.cons ⟨rfl, name.value?⟩ (.cons ⟨rfl, constants.1⟩ (.cons ⟨rfl, constants.1⟩
        (.cons ⟨rfl, constants.2⟩ (.cons ⟨rfl, constants.1⟩ (.cons ⟨rfl, constants.1⟩ .nil))))))
  have statements := tells_statements allowed
  have whole {tags : List Tag} {children : List Markup.Element} (tells : Tells tags children) :=
    Markup.tells_around opening closing rfl rfl rfl spells tells
  cases none : operation.parameters.isEmpty with
  | false =>
      have tells := whole ((tells_parameters parameters).append statements)
      simpa [operationTags, operationTree, none, opening, closing] using tells
  | true =>
      have tells := whole statements
      simpa [operationTags, operationTree, none, opening, closing] using tells

/-- A declared type has its attributes and operations as children. -/
theorem tells_declared {id : Nat} {name : String} {attributes : List Slot}
    {operations : List Operation} (plain : IsPlainName name)
    (listed : ∀ slot ∈ attributes, IsPlainSlot slot)
    (told : ∀ operation ∈ operations, Tells (operationTags operation) [operationTree operation]) :
    Tells (Element.declared id name attributes operations).tags
      [(Element.declared id name attributes operations).tree] := by
  let opening : Tag :=
    { level := 2, form := .opening, name := "Class"
      attributes :=
        [("id", Text.decimal id), ("name", Text.escapeName name), ("module", "1"),
          ("line", "1")] }
  let closing : Tag := { level := 2, form := .closing, name := "Class" }
  have constant : value? "1" = some "1" := by decide
  have spells : Spells opening
      (Element.tree (.declared id name attributes operations)).attributes :=
    .of_keys "Class" ["id", "name", "module", "line"] rfl rfl (by decide) (by decide)
      (.cons ⟨rfl, value?_decimal id⟩ (.cons ⟨rfl, plain.value?⟩
        (.cons ⟨rfl, constant⟩ (.cons ⟨rfl, constant⟩ .nil))))
  have attributive : Tells (attributes.map attributeTag) (attributes.map attributeTree) := by
    rw [List.map_eq_flatMap]
    exact Markup.tells_flatMap fun slot inside => tells_attribute (listed slot inside)
  have operational : Tells (operations.flatMap operationTags) (operations.map operationTree) :=
    Markup.tells_flatMap told
  have whole := Markup.tells_around opening closing rfl rfl rfl spells
    (attributive.append operational)
  simpa [Element.tags, Element.tree, opening, closing] using whole

theorem tells_element {element : Element} (names : ∀ name ∈ element.names, IsPlainName name)
    (slots : ∀ slot ∈ element.slots, IsPlainSlot slot)
    (allowed : ∀ statement ∈ element.statements, IsAllowed statement.text) :
    Tells element.tags [element.tree] := by
  cases element with
  | mentioned id name =>
      have plain : IsPlainName name := names name List.mem_cons_self
      exact Markup.tells_empty rfl <| .of_keys "Class" ["id", "name"] rfl rfl (by decide)
        (by decide) (.cons ⟨rfl, value?_decimal id⟩ (.cons ⟨rfl, plain.value?⟩ .nil))
  | generalization id child parent =>
      exact Markup.tells_empty rfl <| .of_keys "Genrl" ["id", "child", "parent"] rfl rfl
        (by decide) (by decide) (.cons ⟨rfl, value?_decimal id⟩
          (.cons ⟨rfl, value?_decimal child⟩ (.cons ⟨rfl, value?_decimal parent⟩ .nil)))
  | declared id name attributes operations =>
      obtain ⟨plain, named⟩ := List.forall_mem_cons.mp names
      obtain ⟨listed, parameters⟩ := List.forall_mem_append.mp slots
      exact tells_declared plain listed fun operation inside =>
        tells_operation (named _ (List.mem_map_of_mem inside))
          (fun slot found => parameters slot (List.mem_flatMap.mpr ⟨operation, inside, found⟩))
          (fun statement found =>
            allowed statement (List.mem_flatMap.mpr ⟨operation, inside, found⟩))

/-- What makes a document read as it was meant: path, attributes and parameters without marks,
types and operations without quotes and ampersands, and nowhere a character that XML does not
allow. -/
structure Document.IsPlain (document : Document) : Prop where
  path : IsUnmarked document.modulePath ∧ IsAllowed document.modulePath
  names : ∀ name ∈ document.names, IsPlainName name
  slots : ∀ slot ∈ document.slots, IsPlainSlot slot
  texts : ∀ statement ∈ document.statements, IsAllowed statement.text

theorem tells_module {document : Document}
    (plain : IsUnmarked document.modulePath ∧ IsAllowed document.modulePath) :
    Tells [document.moduleTag] [document.moduleTree] := by
  have constant : value? "1" = some "1" := by decide
  exact Markup.tells_empty rfl <| .of_keys "Module" ["id", "module", "moduleLines"] rfl rfl
    (by decide) (by decide) (.cons ⟨rfl, constant⟩
      (.cons ⟨rfl, Markup.value?_unmarked plain.1 plain.2⟩ (.cons ⟨rfl, value?_decimal _⟩ .nil)))

theorem Document.toList_render (document : Document) :
    document.render.toList = Markup.declaration ++ '\n' :: Markup.textOf document.tags := by
  have line (tag : Tag) : (tag.line ++ "\n").toList = tag.line.toList ++ ['\n'] := by
    rw [String.toList_append]
    rfl
  calc document.render.toList
    _ = (Markup.declaration ++ ['\n']) ++
        document.tags.flatMap fun tag => (tag.line ++ "\n").toList := by
      rw [Document.render, String.toList_join, List.map_cons, List.flatMap_cons, List.map_map,
        List.flatMap_map, String.toList_append]
      rfl
    _ = Markup.declaration ++ '\n' :: document.tags.flatMap fun tag =>
        tag.line.toList ++ ['\n'] := by
      simp only [line, List.append_assoc, List.singleton_append]
    _ = Markup.declaration ++ '\n' :: Markup.textOf document.tags := rfl

/-- A plain document is read as it was meant. -/
theorem Document.IsPlain.read? {document : Document} (plain : document.IsPlain) :
    Markup.read? document.render = some document.tree := by
  let root : Tag :=
    { level := 0, form := .opening, name := "XMI"
      attributes :=
        [("xmi.version", "1.2"), ("xmlns:UML", "http://schema.omg.org/spec/UML/1.3")] }
  let content : Tag := { level := 1, form := .opening, name := "XMI.content" }
  let contentEnd : Tag := { level := 1, form := .closing, name := "XMI.content" }
  let rootEnd : Tag := { level := 0, form := .closing, name := "XMI" }
  have elements : Tells (document.elements.flatMap Element.tags)
      (document.elements.map Element.tree) :=
    Markup.tells_flatMap fun element inside => tells_element
      (fun name found => plain.names name (List.mem_flatMap.mpr ⟨element, inside, found⟩))
      (fun slot found => plain.slots slot (List.mem_flatMap.mpr ⟨element, inside, found⟩))
      (fun statement found => plain.texts statement (List.mem_flatMap.mpr ⟨element, inside, found⟩))
  have spellsContent : Spells content [] :=
    .of_keys "XMI.content" [] rfl rfl (by decide) (by decide) .nil
  have inner := Markup.tells_around content contentEnd rfl rfl rfl spellsContent
    ((tells_module plain.path).append elements)
  have constants : value? "1.2" = some "1.2" ∧
      value? "http://schema.omg.org/spec/UML/1.3" = some "http://schema.omg.org/spec/UML/1.3" := by
    decide
  have spellsRoot : Spells root document.tree.attributes :=
    .of_keys "XMI" ["xmi.version", "xmlns:UML"] rfl rfl (by decide) (by decide)
      (.cons ⟨rfl, constants.1⟩ (.cons ⟨rfl, constants.2⟩ .nil))
  have written : document.render.toList = Markup.declaration ++ '\n' :: Markup.textOf
      (root :: (content :: ([document.moduleTag] ++ document.elements.flatMap Element.tags) ++
        [contentEnd]) ++ [rootEnd]) := by
    rw [document.toList_render]
    simp [Document.tags, root, content, contentEnd, rootEnd]
  have read := Markup.read?_around root rootEnd rfl rfl rfl spellsRoot inner written
  simpa [Document.tree, root, content] using read

/-- A value without angle brackets. -/
def HasNoBrackets (value : String) : Prop :=
  '<' ∉ value.toList ∧ '>' ∉ value.toList

/-- A tag with statements has the line of some, and no value of a tag that names a type or an
operation holds an angle bracket. -/
def Tag.IsEscaped (tag : Tag) : Prop :=
  match tag.name with
  | "Statements" => ∃ statements, tag.attributes = [("list", encodeStatements statements)]
  | "Class" | "Oper" => ∀ pair ∈ tag.attributes, HasNoBrackets pair.2
  | _ => True

theorem hasNoBrackets_escapeName (name : String) : HasNoBrackets (Text.escapeName name) := by
  rw [HasNoBrackets, Text.escapeName, Text.mapChars, String.toList_ofList]
  exact ⟨fun inside => ((Text.mem_escapeAngles (by decide)).mp inside).2.1 rfl,
    fun inside => ((Text.mem_escapeAngles (by decide)).mp inside).2.2 rfl⟩

theorem hasNoBrackets_decimal (number : Nat) : HasNoBrackets (Text.decimal number) := by
  constructor <;> exact fun inside => nomatch isDigit_of_mem_decimal inside

theorem operationTags_isEscaped (operation : Operation) :
    ∀ tag ∈ operationTags operation, tag.IsEscaped := by
  have constants : HasNoBrackets "f" ∧ HasNoBrackets "1" := by
    constructor <;> constructor <;> decide
  intro tag inside
  rw [operationTags] at inside
  simp only [List.mem_append, List.mem_cons, List.not_mem_nil, or_false] at inside
  rcases inside with (rfl | parameters) | rfl | rfl
  · intro pair inside
    simp only [List.mem_cons, List.not_mem_nil, or_false] at inside
    rcases inside with rfl | rfl | rfl | rfl | rfl | rfl
    · exact hasNoBrackets_escapeName operation.name
    · exact constants.1
    · exact constants.1
    · exact constants.2
    · exact constants.1
    · exact constants.1
  · split at parameters
    · cases parameters
    · obtain rfl := List.mem_singleton.mp parameters
      trivial
  · exact ⟨operation.statements, rfl⟩
  · rintro pair ⟨⟩

theorem Element.tags_isEscaped (element : Element) : ∀ tag ∈ element.tags, tag.IsEscaped := by
  have constant : HasNoBrackets "1" := by constructor <;> decide
  cases element with
  | mentioned id name =>
      intro tag inside
      obtain rfl := List.mem_singleton.mp inside
      exact List.forall_mem_cons.mpr ⟨hasNoBrackets_decimal id,
        List.forall_mem_singleton.mpr (hasNoBrackets_escapeName name)⟩
  | generalization id child parent =>
      intro tag inside
      obtain rfl := List.mem_singleton.mp inside
      trivial
  | declared id name attributes operations =>
      intro tag inside
      simp only [Element.tags, List.mem_append, List.mem_singleton] at inside
      rcases inside with ((rfl | listed) | operational) | rfl
      · exact List.forall_mem_cons.mpr ⟨hasNoBrackets_decimal id,
          List.forall_mem_cons.mpr ⟨hasNoBrackets_escapeName name,
            List.forall_mem_cons.mpr ⟨constant, List.forall_mem_singleton.mpr constant⟩⟩⟩
      · obtain ⟨slot, -, rfl⟩ := List.mem_map.mp listed
        trivial
      · obtain ⟨operation, -, inside⟩ := List.mem_flatMap.mp operational
        exact operationTags_isEscaped operation tag inside
      · rintro pair ⟨⟩

theorem Document.tags_isEscaped (document : Document) : ∀ tag ∈ document.tags, tag.IsEscaped := by
  intro tag inside
  simp only [Document.tags, List.mem_append, List.mem_cons, List.not_mem_nil, or_false] at inside
  rcases inside with ((rfl | rfl | rfl) | listed) | rfl | rfl
  · trivial
  · trivial
  · trivial
  · obtain ⟨element, -, inside⟩ := List.mem_flatMap.mp listed
    exact element.tags_isEscaped tag inside
  · trivial
  · trivial

section Units

variable {model : Model} {name : String} {slot : Slot}

/-- An element stands for a declared type, or has at most the name of a type. -/
theorem names_typeElement (type : TypeId) (entry : TypeEntry)
    (inside : name ∈ (typeElement model type entry).names) :
    name = entry.name ∨ ∃ method ∈ model.methods, method.name = name := by
  rw [typeElement] at inside
  split at inside
  · rw [Element.names, List.map_map] at inside
    rcases List.mem_cons.mp inside with own | operation
    · exact .inl own
    · obtain ⟨method, owned, rfl⟩ := List.mem_map.mp operation
      exact .inr ⟨method, mem_methodsOf owned, rfl⟩
  · exact .inl (List.mem_singleton.mp inside)

theorem slots_typeElement (type : TypeId) (entry : TypeEntry)
    (inside : slot ∈ (typeElement model type entry).slots) :
    slot ∈ entry.members ∨ ∃ method ∈ model.methods, slot ∈ method.parameters := by
  rw [typeElement] at inside
  split at inside
  · rw [Element.slots, List.flatMap_map] at inside
    rcases List.mem_append.mp inside with member | parameter
    · exact .inl member
    · obtain ⟨method, owned, listed⟩ := List.mem_flatMap.mp parameter
      exact .inr ⟨method, mem_methodsOf owned, listed⟩
  · cases inside

/-- The names of a document are those of types and methods. -/
theorem mem_names (inside : name ∈ (Document.ofModel model).names) :
    (∃ entry ∈ model.types, entry.name = name) ∨ ∃ method ∈ model.methods, method.name = name := by
  obtain ⟨element, known, inside⟩ := List.mem_flatMap.mp inside
  rcases mem_elements model known with ⟨entry, type, found, rfl⟩ | ⟨_, _, _, _, -, -, rfl⟩
  · rcases names_typeElement type entry inside with rfl | method
    · exact .inl ⟨entry, List.mem_of_getElem? found, rfl⟩
    · exact .inr method
  · cases inside

/-- The attributes and parameters of a document are those of types and methods. -/
theorem mem_slots (inside : slot ∈ (Document.ofModel model).slots) :
    (∃ entry ∈ model.types, slot ∈ entry.members) ∨
      ∃ method ∈ model.methods, slot ∈ method.parameters := by
  obtain ⟨element, known, inside⟩ := List.mem_flatMap.mp inside
  rcases mem_elements model known with ⟨entry, type, found, rfl⟩ | ⟨_, _, _, _, -, -, rfl⟩
  · rcases slots_typeElement type entry inside with member | parameter
    · exact .inl ⟨entry, List.mem_of_getElem? found, member⟩
    · exact .inr parameter
  · cases inside

/-- Writing slashes for separators brings no mark and nothing that XML does not allow. -/
theorem forall_mem_modulePath {P : Char → Prop} (slash : P '/') {path : String}
    (known : model.moduleInfo.path = path) (each : ∀ c ∈ path.toList, P c) :
    ∀ c ∈ (Document.ofModel model).modulePath.toList, P c := by
  subst known
  intro c inside
  rw [Document.ofModel, Text.mapChars, String.toList_ofList] at inside
  obtain ⟨before, present, rfl⟩ := List.mem_map.mp inside
  split
  · exact slash
  · exact each before present

end Units

/-- What a reader of markup gets from the document of a unit. -/
structure IsLegible (resolver : Resolver) (root : Node) (path : String) (document : Document) :
    Prop where
  /-- Statements are written on their lines, and types and operations without brackets. -/
  escaped : ∀ tag ∈ document.tags, tag.IsEscaped
  /-- A line of statements may stand as a value, and is read, whatever the statements hold. -/
  lists : ∀ statements : List Statement, IsValue (encodeStatements statements).toList ∧
    ((∀ statement ∈ statements, IsAllowed statement.text) →
      value? (encodeStatements statements) = some (spoken (plainStatements statements)))
  /-- The path, the attributes and the parameters are written as they stand. Where they hold no
  marks, it is only for the names of types and operations that a value may not stand where it
  does. -/
  values : IsUnmarked path → (∀ slot ∈ document.slots, IsUnmarked slot.name) →
    (AreValues (valuesIn document.tags) ↔
      ∀ name ∈ document.names, '"' ∉ name.toList ∧ RefersOnly name.toList)
  /-- Where these names hold neither quotes nor ampersands, either, the text is well formed and
  says what it was meant to. -/
  read : IsUnmarked path ∧ IsAllowed path → (∀ slot ∈ document.slots, IsPlainSlot slot) →
    (∀ name ∈ document.names, IsPlainName name) →
    (∀ statement ∈ document.statements, IsAllowed statement.text) →
    Markup.read? document.render = some document.tree
  /-- Types are named by what is known of nodes, operations by their declarations. -/
  names : ∀ name ∈ document.names,
    (Naming.given resolver root path).type name ∨ (Naming.given resolver root path).method name
  slots : ∀ slot ∈ document.slots, (Naming.given resolver root path).slot slot.name

/-- The document of a unit is legible, whatever path the unit has, and whatever is known of it. -/
theorem ofUnit_isLegible (resolver : Resolver) (root : Node) (path : String) :
    IsLegible resolver root path (Document.ofModel (Model.ofUnit resolver root path)) := by
  have follows := Model.ofUnit_follows resolver root path
  exact
    { escaped := Document.tags_isEscaped _
      lists := fun statements => ⟨isValue_encodeStatements statements, value?_encodeStatements⟩
      values := fun unmarked => areValues_document
        (forall_mem_modulePath (by decide) follows.path unmarked)
      read := fun plain slots names texts => Document.IsPlain.read?
        { path := ⟨forall_mem_modulePath (by decide) follows.path plain.1,
            forall_mem_modulePath (by decide) follows.path plain.2⟩
          names, slots, texts }
      names := fun name inside => by
        rcases mem_names inside with ⟨entry, present, rfl⟩ | ⟨method, present, rfl⟩
        · exact .inl (follows.types entry present)
        · exact .inr (follows.methods method present)
      slots := fun slot inside => by
        rcases mem_slots inside with ⟨entry, present, listed⟩ | ⟨method, present, listed⟩
        · exact follows.members entry present slot listed
        · exact follows.parameters method present slot listed }

/-- Every type has one name. -/
def shelfResolver (type : String) : Resolver :=
  { packageName := ""
    lineCount := 9
    symbol := fun _ => some { kind := .classSymbol, name := "", qualifiedName := some type }
    scope := fun _ => none }

/-- A variable of a known type. -/
def shelfVariable (id : Nat) (role : Syntax.Role) (name : String) : Node :=
  { Node.bare id (.variableDecl name)
      [{ Node.bare (id + 1) (.identifier "Box" true) [] with role := some .type }] with
    role := some role }

/-- A method with a conditional. -/
def shelfMethod (id : Nat) (name condition : String) (parameters : List Node) : Node :=
  .bare id (.methodDecl name) (parameters ++
    [.bare (id + 1) .conditional
      [{ Node.bare (id + 2) .block [] with role := some .condition, text := condition }]])

/-- A class with an attribute and two methods, the first of which has a parameter. -/
def shelfUnit (member parameter lifting dropping : String) : Node :=
  .bare 0 .compilationUnit
    [.bare 1 (.classDecl "Shelf" .classType)
      [shelfVariable 2 .member member,
        shelfMethod 4 "lift" lifting [shelfVariable 7 .parameter parameter],
        shelfMethod 9 "drop" dropping []]]

/-- Marks in type arguments and conditions are escaped and read back. -/
theorem shelfUnit_isLegible :
    AreValues (valuesIn (Document.ofModel (Model.ofUnit (shelfResolver "Box<Load>")
        (shelfUnit "size" "load" "load < \"size\" && !full" "") "src\\Shelf.java")).tags) ∧
      Markup.read? (renderModel (Model.ofUnit (shelfResolver "Box<Load>")
        (shelfUnit "size" "load" "load < \"size\" && !full" "") "src\\Shelf.java")) =
        some (Document.ofModel (Model.ofUnit (shelfResolver "Box<Load>")
          (shelfUnit "size" "load" "load < \"size\" && !full" "") "src\\Shelf.java")).tree := by
  have legible := ofUnit_isLegible (shelfResolver "Box<Load>")
    (shelfUnit "size" "load" "load < \"size\" && !full" "") "src\\Shelf.java"
  constructor
  · exact (legible.values (by decide) (by decide +kernel)).mpr (by decide +kernel)
  · exact legible.read (by decide) (by decide +kernel) (by decide +kernel) (by decide +kernel)

/-- A document whose names, path and conditions are as troublesome as they can be. -/
def tangledDocument : Document :=
  Document.ofModel (Model.ofUnit (shelfResolver "Box<Front&Load>")
    (shelfUnit "size<1" "load\"" "full\n&& lit" "\x01") "Shelf<1>.java")

/-- The ampersand of a type begins no reference, and path, attribute and parameter are written
with their marks, so the text is not well formed. Of the conditions, which are escaped, one is
read with a blank for its line break, and the other holds what XML does not allow. -/
theorem tangledDocument_not_read :
    ¬ AreValues (valuesIn tangledDocument.tags) ∧
      ("Box&lt;Front&Load&gt;" ∈ valuesIn tangledDocument.tags ∧
        ¬ RefersOnly "Box&lt;Front&Load&gt;".toList) ∧
      ("Shelf<1>.java" ∈ valuesIn tangledDocument.tags ∧
        "size<1" ∈ valuesIn tangledDocument.tags ∧
        "load\"@11@f@f" ∈ valuesIn tangledDocument.tags) ∧
      ("\x7b[full\n&amp;&amp; lit]#\x7d" ∈ valuesIn tangledDocument.tags ∧
        value? "\x7b[full\n&amp;&amp; lit]#\x7d" = some "\x7b[full && lit]#\x7d") ∧
      ("\x7b[\x01]#\x7d" ∈ valuesIn tangledDocument.tags ∧
        value? "\x7b[\x01]#\x7d" = none) ∧
      Markup.read? tangledDocument.render = none := by
  have named : "Box&lt;Front&Load&gt;" ∈ valuesIn tangledDocument.tags := by decide +kernel
  have bare : ¬ RefersOnly "Box&lt;Front&Load&gt;".toList := by decide
  have stuck : (('\n' :: Markup.textOf tangledDocument.tags).foldlM
      Markup.Reader.step {}).isNone := by
    decide +kernel
  refine ⟨fun all => bare (all _ named).refersOnly, ⟨named, bare⟩, ?_, ?_, ?_, ?_⟩
  · decide +kernel
  · exact ⟨by decide +kernel, by decide⟩
  · exact ⟨by decide +kernel, by decide⟩
  · rw [Markup.read?_eq (Document.toList_render _), Option.isNone_iff_eq_none.mp stuck]
    rfl

end JavaStructure.Interchange
