/-
# Variables of a declared class

The scope of a name lists the declarations that are visible there, each with the type that its
declaration says. Where this type is the plain name of a class that the unit declares, it is
listed under the name by which the model defines the class, and so a variable that is used in a
method has the defined class for its type. Names are read in the ASCII alphabet only: a class
with another letter in its name is defined under one name, while its variables are listed under
another.
-/

import JavaStructure.Proofs.Building.Emissions
import JavaStructure.Proofs.Resolution.DeclaredClasses
import JavaStructure.Proofs.Resolution.Receivers

namespace JavaStructure

open Syntax (Node Kind Flavor Trail Leads)

namespace Names

variable {name : String}

/-- An identifier of the ASCII alphabet that can name a class: it is no keyword for a primitive
type or for a bound, and is not taken for a type variable. -/
structure IsPlainClassName (name : String) : Prop where
  identifier : isIdentifier name.toList = true
  noPrimitive : name ∉ primitives
  noBound : isBoundKeyword name = false
  noVariable : isTypeVariable name = false

namespace IsPlainClassName

theorem isClassName (plain : IsPlainClassName name) : IsClassName name where
  nonempty := by
    rintro rfl
    cases plain.identifier
  plain c inside := by
    obtain ⟨noBracket, noArguments, noDot⟩ :=
      plain_of_isNamePart (isNamePart_of_mem plain.identifier inside)
    exact ⟨noDot, noArguments, noBracket⟩
  noPrimitive := plain.noPrimitive
  noVariable := plain.noVariable

/-- The plain name of a class is qualified in a text as it is by itself. -/
theorem qualifyText_eq (plain : IsPlainClassName name) (q : Qualifier) :
    q.qualifyText name = q.qualify name := by
  have unbound : isBoundKeyword (.ofList name.toList) = false := by
    rw [String.ofList_toList]
    exact plain.noBound
  have same := q.qualifyText_name (.single plain.identifier) unbound
  rwa [String.ofList_toList] at same

/-- A declared name is qualified in a text as it is declared. -/
theorem qualifyText_of_declared (plain : IsPlainClassName name) {q : Qualifier}
    {qualified : String} (declared : q.declared.lookup name = some qualified) :
    q.qualifyText name = qualified := by
  rw [plain.qualifyText_eq, Qualifier.qualify, plain.isClassName.erase_eq,
    plain.isClassName.qualifyName_eq declared]

end IsPlainClassName

end Names

namespace Resolution

/-- How a scope lists a local declaration. -/
def Site.element (known : Known) (site : Site) : Element :=
  ⟨site.name, site.typeText known⟩

namespace FieldSite

/-- The name of the field. -/
def name (site : FieldSite) : String :=
  (fieldName? site.node).getD ""

/-- How a scope lists a field. -/
def element (declared : List (String × String)) (site : FieldSite) : Element :=
  ⟨site.name, site.typeText declared⟩

end FieldSite

/-- The fields that a class declares, in source order. -/
def ClassSite.fieldSites (site : ClassSite) : List FieldSite :=
  site.node.children.filterMap fun member => (fieldName? member).map fun _ => .mk site member

/-- The fields of a class and of its known superclasses. -/
def fieldSitesOf (known : Known) (units : List Node) (owner : String) : List FieldSite :=
  (known.classes.chain owner).flatMap fun ancestor =>
    (classSite? units ancestor).toList.flatMap ClassSite.fieldSites

/-- The fields that are visible at the end of a trail, those of the innermost class first. -/
def visibleFields (known : Known) (units : List Node) (trail : Trail) : List FieldSite :=
  (classesAround known.qualifier.names trail).flatMap (fieldSitesOf known units)

theorem fields_info (site : ClassSite) (declared : List (String × String)) :
    (site.info declared).fields =
      site.fieldSites.map fun field => (field.name, field.typeText declared) := by
  have rows (member : Node) :
      ((fieldName? member).map fun name => (name, (FieldSite.mk site member).typeText declared)) =
        ((fieldName? member).map fun _ => FieldSite.mk site member).map fun field =>
          (field.name, field.typeText declared) := by
    cases named : fieldName? member with
    | none => rfl
    | some name => simp [FieldSite.name, named]
  calc (site.info declared).fields
    _ = site.node.children.filterMap fun member => (fieldName? member).map fun name =>
        (name, (FieldSite.mk site member).typeText declared) := by
      rw [ClassSite.info, ClassInfo.ofChildren, foldl_addMember_fields, List.nil_append]
    _ = site.fieldSites.map fun field => (field.name, field.typeText declared) := by
      rw [ClassSite.fieldSites, List.map_filterMap]
      exact congrArg (List.filterMap · site.node.children) (funext rows)

variable (unit : Node) (context : List Node)

theorem allFields_eq (owner : String) :
    (knownIn unit context).classes.allFields owner =
      (fieldSitesOf (knownIn unit context) (context ++ [unit]) owner).map fun field =>
        (field.name, field.typeText (knownIn unit context).qualifier.declared) := by
  rw [ClassTable.allFields, fieldSitesOf, List.map_flatMap]
  refine congrArg (List.flatMap · _) (funext fun ancestor => ?_)
  rw [lookup_classes]
  cases classSite? (context ++ [unit]) ancestor with
  | none => rfl
  | some site =>
      rw [Option.map_some, Option.toList_some, List.flatMap_singleton]
      exact fields_info site _

/-- The scope at the end of a trail lists the declarations that are visible there. -/
structure ListsAt (scope : Scope) (known : Known) (units : List Node) (trail : Trail) : Prop where
  locals : scope.locals = (visible trail).map (Site.element known)
  members : scope.members =
    (visibleFields known units trail).map (FieldSite.element known.qualifier.declared)

theorem scopeAt_listsAt (trail : Trail) :
    ListsAt ((knownIn unit context).scopeAt (placeAt (knownIn unit context) trail))
      (knownIn unit context) (context ++ [unit]) trail where
  locals := by
    rw [Known.scopeAt, locals_placeAt, List.map_map]
    rfl
  members := by
    simp only [Known.scopeAt, classes_placeAt, visibleFields, List.map_flatMap, allFields_eq,
      List.map_map]
    rfl

section Declared

variable {known : Known} {name qualified : String}

theorem typeText_of_site (plain : Names.IsPlainClassName name)
    (declared : known.qualifier.declared.lookup name = some qualified) {site : Site}
    (written : site.writtenType? = some name) : site.typeText known = qualified := by
  rw [site.typeText_of_writtenType? known written]
  exact plain.qualifyText_of_declared declared

/-- What a class is declared as in the units at hand counts for the fields of all of them. -/
theorem typeText_of_fieldSite (plain : Names.IsPlainClassName name)
    {declared : List (String × String)} (looked : declared.lookup name = some qualified)
    {site : FieldSite} (written : site.writtenType? = some name) :
    site.typeText declared = qualified := by
  rw [site.typeText_of_writtenType? declared written]
  exact plain.qualifyText_of_declared looked

end Declared

/-- The type of a node goes by the name of a type of the model, and wherever the node stands, the
statements that show what it leaves are uses of a variable of that type. -/
structure IsUsedAs (resolver : Resolver) (model : Model) (node : Node) (name : String)
    (type : TypeId) : Prop where
  typed : ∃ qualified, resolver.identifierType node = some qualified ∧
    model.nameOf type = some qualified
  shown : ∀ place emission, emission? resolver place node = some emission →
    ∀ statement, Shows model emission statement →
      ∃ owner, statement = .variableUse name owner type

/-- A parameter goes by the type of its declaration. -/
theorem identifierType_of_parameter {resolver : Resolver} {known : Known} {place : Place}
    {node : Node} {use : String} {site : Site} (noted : resolver.IsNotedAt known place node use)
    (isLocal : place.findLocal? use = some (site.toLocal known))
    (isParameter : site.kind = .parameter) :
    resolver.identifierType node = some (site.typeText known) := by
  rcases noted.identifierType_of_local isLocal with ⟨other, -⟩ | ⟨-, typed⟩
  · rw [isParameter] at other
    cases other
  · exact typed

theorem isUsedAs_of_identifierType {resolver : Resolver} {model : Model} {node : Node}
    {name qualified : String} {type : TypeId} (kind : node.kind = .identifier name false)
    (typed : resolver.identifierType node = some qualified)
    (only : ∀ other, model.nameOf other = some qualified ↔ other = type) :
    IsUsedAs resolver model node name type where
  typed := ⟨qualified, typed, (only type).mpr rfl⟩
  shown place emission left statement shows := by
    have known : resolver.typeName resolver.packageName node = some qualified := by
      rw [Resolver.typeName, kind]
      exact typed
    rw [emission?, kind] at left
    simp only [known, Option.bind_some] at left
    obtain ⟨owner, -, rfl⟩ := Option.map_eq_some_iff.mp left
    cases shows with
    | variableUse _ knownType => exact ⟨_, by rw [(only _).mp knownType]⟩

/-- In a unit, whatever its context declares, and for every class of the unit: each scope lists
every visible declaration whose type is the plain name of the class under the name by which the
model defines the class, and a parameter or a field of this type is used as a variable of the one
type that the module declares under the name. A plain name is qualified in a text as it is by
itself, in any unit. -/
theorem declaredClass_typesVariables (form : Grammar.ChainForm) (root : Grammar.Node)
    (wellNamed : root.NamesCalls) (context : List Node) (lineCount : Nat) (path : String)
    {declaration : Node} {name : String} {flavor : Flavor}
    (below : declaration ∈ (root.lowerUnit form).preorder)
    (kind : declaration.kind = .classDecl name flavor) (plain : Names.IsPlainClassName name) :
    let unit := root.lowerUnit form
    let known := knownIn unit context
    let resolver := (ofUnit unit lineCount context).toResolver
    let model := Model.ofUnit resolver unit path
    (∀ q : Names.Qualifier, q.qualifyText name = q.qualify name) ∧
    ∃ qualified type, declaredClassName resolver.packageName name = some qualified ∧
      model.IsDeclared type ∧ (∀ other, model.nameOf other = some qualified ↔ other = type) ∧
      ∀ node ∈ unit.preorder, ∀ scope, resolver.scope node = some scope →
        (∃ trail use, Leads unit trail node ∧ node.kind = .identifier use false) ∧
        ∀ trail use, Leads unit trail node → node.kind = .identifier use false →
          ListsAt scope known (context ++ [unit]) trail ∧
          (∀ site ∈ visible trail, site.writtenType? = some name →
            (site.element known).typeName = qualified) ∧
          (∀ site ∈ visibleFields known (context ++ [unit]) trail,
            site.writtenType? = some name →
              (site.element known.qualifier.declared).typeName = qualified) ∧
          (∀ site, nearest? trail use = some site → site.kind = .parameter →
            site.writtenType? = some name → IsUsedAs resolver model node use type) ∧
          ∀ site, nearest? trail use = none →
            nearestField? known (context ++ [unit]) trail use = some site →
              site.writtenType? = some name → IsUsedAs resolver model node use type := by
  intro unit known resolver model
  refine ⟨plain.qualifyText_eq, ?_⟩
  have tidy : unit.AllTidy := root.lowerUnit_allTidy form wellNamed
  have distinct : unit.HasDistinctIds := Grammar.Node.lowerUnit_hasDistinctIds form root
  have regular : unit.AllRegular := root.lowerUnit_regular form
  have named := declaredClassName_eq (Names.Environment.ofUnit unit) plain.isClassName.nonempty
  have defined := ofUnit_defines resolver unit path (fun inner inside => (tidy inner inside).leaf)
    below kind named
  obtain ⟨type, declared, only⟩ := (Model.ofUnit_closed resolver unit path).exists_declared defined
  have looked : known.qualifier.declared.lookup name =
      some ((Names.Environment.ofUnit unit).inPackage name) :=
    lookup_declared below kind plain.isClassName.nonempty context
  refine ⟨_, type, named, declared, only, fun node inside scope shown => ⟨?_, ?_⟩⟩
  · have noted : ((Walk.visit known {} unit).scopes[node.id]?).isSome = true := by
      rw [← Option.isSome_map]
      exact Option.isSome_of_eq_some shown
    obtain ⟨trail, use, leads, -, isUse⟩ :=
      Walk.exists_leads_of_scope known distinct inside noted
    exact ⟨trail, use, leads, isUse⟩
  intro trail use leads isUse
  have noted : resolver.IsNotedAt known (placeAt known trail) node use :=
    ofUnit_isNotedAt lineCount context regular distinct leads isUse
  obtain rfl : known.scopeAt (placeAt known trail) = scope :=
    Option.some.inj (noted.scope.symm.trans shown)
  have isLocal := findLocal?_placeAt known trail use
  refine ⟨scopeAt_listsAt unit context trail,
    fun site _ written => typeText_of_site plain looked written,
    fun site _ written => typeText_of_fieldSite plain looked written, ?_, ?_⟩
  · intro site nearest isParameter written
    rw [nearest] at isLocal
    have typed := identifierType_of_parameter noted isLocal isParameter
    rw [typeText_of_site plain looked written] at typed
    exact isUsedAs_of_identifierType isUse typed only
  · intro site noLocal nearest written
    rw [noLocal] at isLocal
    have isField := findField?_placeAt unit context trail use
    rw [nearest] at isField
    have typed := noted.identifierType_of_field isLocal isField
    rw [typeText_of_fieldSite plain looked written] at typed
    exact isUsedAs_of_identifierType isUse typed only

/-- A class with a field and a parameter of its own type. -/
def boxRoot : Grammar.Node :=
  .bare "program" none ""
    [.bare "package_declaration" none "package shop;" [],
      .bare "class_declaration" none ""
        [.bare "identifier" (some "name") "Box" [],
          .bare "class_body" (some "body") ""
            [.bare "field_declaration" none "Box lid;"
              [.bare "type_identifier" (some "type") "Box" [],
                .bare "variable_declarator" (some "declarator") "lid"
                  [.bare "identifier" (some "name") "lid" []]],
              .bare "method_declaration" none ""
                [.bare "identifier" (some "name") "pick" [],
                  .bare "formal_parameters" (some "parameters") "(Box other)"
                    [.bare "formal_parameter" none "Box other"
                      [.bare "type_identifier" (some "type") "Box" [],
                        .bare "identifier" (some "name") "other" []]],
                  .bare "block" (some "body") ""
                    [.bare "return_statement" none "return lid == other;"
                      [.bare "identifier" none "lid" [], .bare "identifier" none "other" []]]]]]]

def boxType (id : Nat) : Node := ⟨id, .identifier "Box" true, some .type, "Box", 1, []⟩

def lidField : Node := ⟨3, .variableDecl "lid", some .member, "lid", 1, [boxType 4]⟩

def otherParameter : Node :=
  ⟨6, .variableDecl "other", some .parameter, "Box other", 1, [boxType 7]⟩

def lidUse : Node := ⟨10, .identifier "lid" false, none, "lid", 1, []⟩

def otherUse : Node := ⟨11, .identifier "other" false, none, "other", 1, []⟩

def pickReturn : Node := ⟨9, .returnExit, none, "return lid == other;", 1, [lidUse, otherUse]⟩

def pickBlock : Node := ⟨8, .block, some .body, "", 1, [pickReturn]⟩

def pickMethod : Node := ⟨5, .methodDecl "pick", none, "", 1, [otherParameter, pickBlock]⟩

def boxClass : Node := ⟨2, .classDecl "Box" .classType, none, "", 1, [lidField, pickMethod]⟩

def boxUnit : Node := ⟨0, .compilationUnit, none, "", 1, [shopPackage, boxClass]⟩

def pickTrail : Trail :=
  [⟨pickBlock, []⟩, ⟨pickMethod, [otherParameter]⟩, ⟨boxClass, [lidField]⟩,
    ⟨boxUnit, [shopPackage]⟩]

theorem leads_pickReturn : Leads boxUnit pickTrail pickReturn := by
  have toClass : Leads boxUnit [⟨boxUnit, [shopPackage]⟩] boxClass := .child .root rfl rfl
  have toMethod : Leads boxUnit pickTrail.tail.tail pickMethod := toClass.child rfl rfl
  have toBlock : Leads boxUnit pickTrail.tail pickBlock := toMethod.child rfl rfl
  exact toBlock.child rfl rfl

/-- Field and parameter are both used as variables of the declared class. -/
theorem boxUnit_declaredClass_typesVariables :
    let resolver := (ofUnit boxUnit 9 []).toResolver
    let model := Model.ofUnit resolver boxUnit "Box.java"
    boxRoot.lowerUnit .flat = boxUnit ∧
      ∃ type, model.IsDeclared type ∧ model.nameOf type = some "shop.Box" ∧
        IsUsedAs resolver model lidUse "lid" type ∧
        IsUsedAs resolver model otherUse "other" type := by
  intro resolver model
  have toLid : Leads boxUnit (⟨pickReturn, []⟩ :: pickTrail) lidUse :=
    leads_pickReturn.child rfl rfl
  have toOther : Leads boxUnit (⟨pickReturn, [lidUse]⟩ :: pickTrail) otherUse :=
    leads_pickReturn.child rfl rfl
  have wellNamed : boxRoot.NamesCalls := by
    simp [Grammar.Node.namesCalls_mk, Grammar.Node.namesByWord_iff, Grammar.Node.IsWord,
      Grammar.Node.childOf, boxRoot, Grammar.Node.bare]
  have toClass : Leads boxUnit [⟨boxUnit, [shopPackage]⟩] boxClass := .child .root rfl rfl
  have plain : Names.IsPlainClassName "Box" := ⟨by decide, by decide, by decide, by decide⟩
  have hasScope (use : Node) (isUse : use = lidUse ∨ use = otherUse) :
      ∃ scope, resolver.scope use = some scope := by
    rw [← Option.isSome_iff_exists]
    rcases isUse with rfl | rfl <;> decide +kernel
  obtain ⟨lidScope, ofLid⟩ := hasScope lidUse (.inl rfl)
  obtain ⟨otherScope, ofOther⟩ := hasScope otherUse (.inr rfl)
  obtain ⟨-, qualified, type, named, declared, only, uses⟩ :=
    declaredClass_typesVariables .flat boxRoot wellNamed [] 9 "Box.java" toClass.mem_preorder rfl
      plain
  have packaged : declaredClassName resolver.packageName "Box" = some "shop.Box" := by
    decide +kernel
  obtain rfl : "shop.Box" = qualified := Option.some.inj (packaged.symm.trans named)
  obtain ⟨-, lid⟩ := uses lidUse toLid.mem_preorder lidScope ofLid
  obtain ⟨-, other⟩ := uses otherUse toOther.mem_preorder otherScope ofOther
  obtain ⟨-, -, -, -, field⟩ := lid _ _ toLid rfl
  obtain ⟨-, -, -, parameter, -⟩ := other _ _ toOther rfl
  have nearest : nearestField? (knownIn boxUnit []) [boxUnit] (⟨pickReturn, []⟩ :: pickTrail)
      "lid" = some ⟨⟨boxUnit, boxClass⟩, lidField⟩ := rfl
  exact ⟨rfl, type, declared, (only type).mpr rfl, field _ rfl nearest rfl,
    parameter _ rfl rfl rfl⟩

/-- A class with a letter in its name that is not of the ASCII alphabet. -/
def measureRoot : Grammar.Node :=
  .bare "program" none ""
    [.bare "package_declaration" none "package p;" [],
      .bare "class_declaration" none ""
        [.bare "identifier" (some "name") "Größe" [],
          .bare "class_body" (some "body") ""
            [.bare "method_declaration" none ""
              [.bare "type_identifier" (some "type") "Größe" [],
                .bare "identifier" (some "name") "self" [],
                .bare "formal_parameters" (some "parameters") "(Größe g)"
                  [.bare "formal_parameter" none "Größe g"
                    [.bare "type_identifier" (some "type") "Größe" [],
                      .bare "identifier" (some "name") "g" []]],
                .bare "block" (some "body") "{ return g; }"
                  [.bare "return_statement" none "return g;"
                    [.bare "identifier" none "g" []]]]]]]

/-- The class is defined under its name in the package, but the parameter of the class is listed
and used under a name in which each run of ASCII letters was qualified by itself. That name is a
second type of the model, which no module declares. -/
theorem measureUnit_typesVariables_otherwise :
    let unit := measureRoot.lowerUnit .flat
    let resolver := (ofUnit unit 1 []).toResolver
    let model := Model.ofUnit resolver unit "Größe.java"
    (∃ declaration ∈ unit.preorder, declaration.kind = .classDecl "Größe" .classType) ∧
      declaredClassName resolver.packageName "Größe" = some "p.Größe" ∧
      (knownIn unit []).qualifier.qualify "Größe" = "p.Größe" ∧
      (knownIn unit []).qualifier.qualifyText "Größe" = "p.Größp.e" ∧
      unit.preorder.filterMap resolver.scope =
        [{ enclosingClass := some "p.Größe", locals := [⟨"g", "p.Größp.e"⟩] }] ∧
      model.methods.map (·.statements) = [[.variableUse "g" 0 1]] ∧
      model.types.map (fun type => (type.name, type.moduleDefined)) =
        [("p.Größe", true), ("p.Größp.e", false)] := by
  decide +kernel

end Resolution

end JavaStructure
