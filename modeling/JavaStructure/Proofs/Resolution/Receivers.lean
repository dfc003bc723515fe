/-
# Receivers of a declared type

The type of a variable is kept as a text with every name in it qualified, and erased where a
call is made on the variable. A type that stands by itself is erased first and then qualified.
Both lead to the same type, with or without type arguments and dimensions, so a call on a
variable is made on the type that the declaration of the variable names.
-/

import JavaStructure.Proofs.Names.TypeTexts
import JavaStructure.Proofs.Resolution.Variables

namespace JavaStructure.Resolution

open Syntax (Node Trail Leads)
open Names (IsTypeText erase)

/-- The text of the type that a local variable or a parameter is declared with, if it is not left
open to be inferred. -/
def Site.writtenType? (site : Site) : Option String :=
  ((site.node.childAs .type).map (·.text)).filter fun text => Text.trimmed text ≠ "var"

/-- The text of the type that a field is declared with. -/
def FieldSite.writtenType? (site : FieldSite) : Option String :=
  (site.node.childAs .type).map (·.text)

variable {text : String}

theorem Site.typeText_of_writtenType? (known : Known) {site : Site}
    (written : site.writtenType? = some text) :
    site.typeText known = known.qualifier.qualifyText text := by
  obtain ⟨declared, named⟩ := Option.filter_eq_some_iff.mp written
  obtain ⟨type, child, rfl⟩ := Option.map_eq_some_iff.mp declared
  rw [Site.typeText, Known.declaredType, child]
  exact if_neg (of_decide_eq_true named)

theorem FieldSite.typeText_of_writtenType? (declared : List (String × String)) {site : FieldSite}
    (written : site.writtenType? = some text) :
    site.typeText declared = (site.owner.qualifier declared).qualifyText text := by
  obtain ⟨type, child, rfl⟩ := Option.map_eq_some_iff.mp written
  rw [FieldSite.typeText, child]

/-- Where all names that qualify others are dotted names, a type text is erased after it was
qualified to the type that it is qualified to after it was erased. So in a unit, a call on a
local variable, a parameter or a field is made on the type that the type of its declaration
resolves to in the unit of the declaration. -/
theorem callsOn_writtenType :
    (∀ q : Names.Qualifier, q.HasDottedNames → ∀ text, IsTypeText text →
      erase (q.qualifyText text) = q.qualify text) ∧
    ∀ (form : Grammar.ChainForm) (root : Grammar.Node) (lineCount : Nat) (context : List Node),
      let unit := root.lowerUnit form
      let known := knownIn unit context
      let resolver := (ofUnit unit lineCount context).toResolver
      ∀ trail node name, Leads unit trail node → node.kind = .identifier name false →
        ∀ text, IsTypeText text →
          (∀ site, nearest? trail name = some site → site.writtenType? = some text →
            known.qualifier.HasDottedNames →
              resolver.CallsOn trail node (known.qualifier.qualify text)) ∧
          ∀ site, nearest? trail name = none →
            nearestField? known (context ++ [unit]) trail name = some site →
            site.writtenType? = some text →
            (site.owner.qualifier known.qualifier.declared).HasDottedNames →
              resolver.CallsOn trail node
                ((site.owner.qualifier known.qualifier.declared).qualify text) := by
  refine ⟨fun q plain text isType => Names.Qualifier.erase_qualifyText plain isType, ?_⟩
  intro form root lineCount context unit known resolver trail node name leads kind text isType
  have regular : unit.AllRegular := Grammar.Node.lowerUnit_regular form root
  have distinct : unit.HasDistinctIds := Grammar.Node.lowerUnit_hasDistinctIds form root
  have callsOn {type : String} (typed : known.nameType? (placeAt known trail) name = some type) :
      resolver.CallsOn trail node type :=
    callsOn_of_nameType? lineCount context regular distinct leads kind typed
  have isLocal := findLocal?_placeAt known trail name
  refine ⟨fun site nearest written plain => callsOn ?_,
    fun site noLocal nearest written plain => callsOn ?_⟩
  · rw [nearest] at isLocal
    have typed := site.typeText_of_writtenType? known written
    calc known.nameType? (placeAt known trail) name
      _ = some (Names.erase (site.typeText known)) := by
        rw [Known.nameType?, isLocal]
        rfl
      _ = some (known.qualifier.qualify text) := by
        rw [typed, Names.Qualifier.erase_qualifyText plain isType]
  · rw [noLocal] at isLocal
    have isField := findField?_placeAt unit context trail name
    rw [nearest] at isField
    have typed := site.typeText_of_writtenType? known.qualifier.declared written
    calc known.nameType? (placeAt known trail) name
      _ = some (Names.erase (site.typeText known.qualifier.declared)) := by
        rw [Known.nameType?, isLocal, isField]
        rfl
      _ = some ((site.owner.qualifier known.qualifier.declared).qualify text) := by
        rw [typed, Names.Qualifier.erase_qualifyText plain isType]

/-- A class with a field of an array type, and a method with a variable-arity parameter. A call
is made on each of the two. -/
def deskRoot : Grammar.Node :=
  .bare "program" none ""
    [.bare "package_declaration" none "package shop;" [],
      .bare "import_declaration" none "import java.util.List;" [],
      .bare "class_declaration" none ""
        [.bare "identifier" (some "name") "Desk" [],
          .bare "class_body" (some "body") ""
            [.bare "field_declaration" none "List<Item>[] drawers;"
              [.bare "array_type" (some "type") "List<Item>[]" [],
                .bare "variable_declarator" (some "declarator") "drawers"
                  [.bare "identifier" (some "name") "drawers" []]],
              .bare "method_declaration" none ""
                [.bare "identifier" (some "name") "open" [],
                  .bare "formal_parameters" (some "parameters") "(Shelf... shelves)"
                    [.bare "spread_parameter" none "Shelf... shelves"
                      [.bare "type_identifier" none "Shelf" [],
                        .bare "variable_declarator" none "shelves"
                          [.bare "identifier" (some "name") "shelves" []]]],
                  .bare "block" (some "body") ""
                    [.bare "method_invocation" none "drawers.clone()"
                      [.bare "identifier" (some "object") "drawers" [],
                        .bare "identifier" (some "name") "clone" []],
                      .bare "method_invocation" none "shelves.clone()"
                        [.bare "identifier" (some "object") "shelves" [],
                          .bare "identifier" (some "name") "clone" []]]]]]]

def drawersField : Node :=
  ⟨4, .variableDecl "drawers", some .member, "drawers", 1,
    [⟨5, .other "array_type", some .type, "List<Item>[]", 1, []⟩]⟩

def shelvesParameter : Node :=
  ⟨7, .variableDecl "shelves", some .parameter, "Shelf... shelves", 1,
    [⟨8, .identifier "Shelf" true, some .type, "Shelf", 1, []⟩]⟩

def drawersUse : Node := ⟨11, .identifier "drawers" false, some .object, "drawers", 1, []⟩

def drawersCall : Node :=
  ⟨10, .invocation "drawers.clone", none, "drawers.clone()", 1,
    [drawersUse, ⟨12, .identifier "clone" false, some .name, "clone", 1, []⟩]⟩

def shelvesUse : Node := ⟨14, .identifier "shelves" false, some .object, "shelves", 1, []⟩

def shelvesCall : Node :=
  ⟨13, .invocation "shelves.clone", none, "shelves.clone()", 1,
    [shelvesUse, ⟨15, .identifier "clone" false, some .name, "clone", 1, []⟩]⟩

def openingBlock : Node := ⟨9, .block, some .body, "", 1, [drawersCall, shelvesCall]⟩

def openingMethod : Node :=
  ⟨6, .methodDecl "open", none, "", 1, [shelvesParameter, openingBlock]⟩

def deskClass : Node :=
  ⟨3, .classDecl "Desk" .classType, none, "", 1, [drawersField, openingMethod]⟩

def shopPackage : Node := ⟨1, .packageDecl, none, "package shop;", 1, []⟩

def listImport : Node := ⟨2, .importDecl, none, "import java.util.List;", 1, []⟩

def deskUnit : Node :=
  ⟨0, .compilationUnit, none, "", 1, [shopPackage, listImport, deskClass]⟩

def openingTrail : Trail :=
  [⟨openingMethod, [shelvesParameter]⟩, ⟨deskClass, [drawersField]⟩,
    ⟨deskUnit, [shopPackage, listImport]⟩]

theorem leads_openingBlock : Leads deskUnit openingTrail openingBlock := by
  have toClass : Leads deskUnit openingTrail.tail.tail deskClass := .child .root rfl rfl
  have toMethod : Leads deskUnit openingTrail.tail openingMethod := toClass.child rfl rfl
  exact toMethod.child rfl rfl

/-- The call on the array of lists is made on the imported type, that on the shelves on a type of
the package. -/
theorem deskUnit_callsOn_writtenType :
    let resolver := (ofUnit deskUnit 9 []).toResolver
    deskRoot.lowerUnit .flat = deskUnit ∧
      resolver.CallsOn (⟨drawersCall, []⟩ :: ⟨openingBlock, []⟩ :: openingTrail) drawersUse
        "java.util.List" ∧
      resolver.CallsOn (⟨shelvesCall, []⟩ :: ⟨openingBlock, [drawersCall]⟩ :: openingTrail)
        shelvesUse "shop.Shelf" := by
  intro resolver
  have toFirst : Leads deskUnit (⟨openingBlock, []⟩ :: openingTrail) drawersCall :=
    leads_openingBlock.child rfl rfl
  have toSecond : Leads deskUnit (⟨openingBlock, [drawersCall]⟩ :: openingTrail) shelvesCall :=
    leads_openingBlock.child rfl rfl
  have toDrawers : Leads deskUnit
      (⟨drawersCall, []⟩ :: ⟨openingBlock, []⟩ :: openingTrail) drawersUse :=
    toFirst.child rfl rfl
  have toShelves : Leads deskUnit
      (⟨shelvesCall, []⟩ :: ⟨openingBlock, [drawersCall]⟩ :: openingTrail) shelvesUse :=
    toSecond.child rfl rfl
  have lists : IsTypeText (.ofList ("List".toList ++ "<Item>[]".toList)) :=
    .mk (.single (by decide)) (by decide) (.arguments "Item>[]".toList)
  have shelf : IsTypeText (.ofList ("Shelf".toList ++ [])) :=
    .mk (.single (by decide)) (by decide) (.dimensions 0 false)
  have plain : (knownIn deskUnit []).qualifier.HasDottedNames := by decide +kernel
  have nearest : nearestField? (knownIn deskUnit []) [deskUnit]
      (⟨drawersCall, []⟩ :: ⟨openingBlock, []⟩ :: openingTrail) "drawers" =
        some ⟨⟨deskUnit, deskClass⟩, drawersField⟩ := rfl
  have lowered : deskRoot.lowerUnit .flat = deskUnit := rfl
  have calls := callsOn_writtenType.2 .flat deskRoot 9 []
  rw [lowered] at calls
  obtain ⟨-, onField⟩ := calls _ drawersUse "drawers" toDrawers rfl _ lists
  obtain ⟨onLocal, -⟩ := calls _ shelvesUse "shelves" toShelves rfl _ shelf
  exact ⟨lowered, onField _ rfl nearest rfl plain, onLocal _ rfl rfl plain⟩

end JavaStructure.Resolution
