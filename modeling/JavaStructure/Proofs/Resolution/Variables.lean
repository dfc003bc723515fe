/-
# What an identifier refers to

The walk looks a name up among the local declarations and the fields. Whoever reads the result
looks the same name up again, in the scope that was noted for the identifier. Both find the
same declaration: the nearest local one that is visible, else the field of the innermost class
around that has or inherits one.
-/

import JavaStructure.Building.Walk
import JavaStructure.Proofs.Grammar.Lowering
import JavaStructure.Proofs.Model.Growth
import JavaStructure.Proofs.Resolution.Fields
import JavaStructure.Proofs.Resolution.Notes

namespace JavaStructure

open Syntax (Node Kind Role Step Trail Leads)
open Names (erase)
open Resolution (Known Site)

variable {known : Known} {place : Resolution.Place} {resolver : Resolver} {node : Node}
  {name : String}

namespace Resolution

/-- The local that a scope shows under a name is the one that the name refers to. -/
theorem find?_locals (known : Known) (place : Place) (name : String) :
    ((known.scopeAt place).locals.find? fun element => element.name = name).map (·.typeName) =
      (place.findLocal? name).map (·.typeText) := by
  rw [Known.scopeAt, List.find?_map, Option.map_map]
  rfl

theorem find?_allFields (classes : ClassTable) (owner name : String) :
    ((classes.allFields owner).find? fun field => field.1 = name).map (·.2) =
      (classes.inheritedField? owner name).map (·.2) := by
  rw [ClassTable.allFields, List.find?_flatMap, ClassTable.inheritedField?, List.map_findSome?,
    List.map_findSome?]
  refine congrArg (List.findSome? · _) (funext fun ancestor => ?_)
  rw [Function.comp_apply, Function.comp_apply, ClassTable.ownField?, Option.map_map]
  cases classes.lookup ancestor with
  | none => rfl
  | some info =>
      rw [Option.bind_some, lookup_eq_find?, Option.map_map]
      rfl

/-- The member that a scope shows under a name is the field that the name refers to. -/
theorem find?_members (known : Known) (place : Place) (name : String) :
    ((known.scopeAt place).members.find? fun element => element.name = name).map (·.typeName) =
      (known.findField? place name).map (·.2) := by
  calc ((known.scopeAt place).members.find? fun element => element.name = name).map (·.typeName)
    _ = place.classes.findSome? fun owner =>
        ((known.classes.allFields owner).find? fun field => field.1 = name).map (·.2) := by
      rw [Known.scopeAt, List.find?_map, Option.map_map, List.find?_flatMap, List.map_findSome?]
      rfl
    _ = place.classes.findSome? fun owner =>
        (known.classes.inheritedField? owner name).map (·.2) :=
      congrArg (List.findSome? · _)
        (funext fun owner => find?_allFields known.classes owner name)
    _ = (known.findField? place name).map (·.2) := by
      rw [Known.findField?, List.map_findSome?]
      rfl

end Resolution

namespace Resolver

/-- The scope of a place shows under a name what the name refers to there. -/
theorem scopeLookup_eq (scope : resolver.scope node = some (known.scopeAt place))
    (named : node.name? = some name) :
    resolver.scopeLookup node =
      ((place.findLocal? name).map (·.typeText)).or ((known.findField? place name).map (·.2)) := by
  simp only [scopeLookup, scope, Option.bind_some, named, Option.getD_some, List.find?_append]
  rw [← Resolution.find?_locals known, ← Resolution.find?_members]
  cases List.find? _ (known.scopeAt place).locals <;> rfl

/-- Symbol and scope of an identifier are those of its name at a place. -/
structure IsNotedAt (resolver : Resolver) (known : Known) (place : Resolution.Place)
    (node : Node) (name : String) : Prop where
  named : node.name? = some name
  symbol : resolver.symbol node = known.nameSymbol? place name
  scope : resolver.scope node = some (known.scopeAt place)

namespace IsNotedAt

/-- A local variable goes by its own name, a parameter by the type of its declaration. -/
theorem identifierType_of_local (noted : resolver.IsNotedAt known place node name) {site : Site}
    (isLocal : place.findLocal? name = some (site.toLocal known)) :
    site.kind = .localVariable ∧ resolver.identifierType node = some name ∨
      site.kind = .parameter ∧ resolver.identifierType node = some (site.typeText known) := by
  rcases site.kind_eq with isLocalVariable | isParameter
  · refine .inl ⟨isLocalVariable, ?_⟩
    simp [identifierType, noted.symbol, Known.nameSymbol?, isLocal, Site.toLocal, isLocalVariable]
  · refine .inr ⟨isParameter, ?_⟩
    have lookup := scopeLookup_eq noted.scope noted.named
    simp [identifierType, noted.symbol, Known.nameSymbol?, isLocal, Site.toLocal, isParameter,
      lookup]

/-- A field goes by the type of its declaration. -/
theorem identifierType_of_field (noted : resolver.IsNotedAt known place node name)
    {owner type : String} (noLocal : place.findLocal? name = none)
    (isField : known.findField? place name = some (owner, type)) :
    resolver.identifierType node = some type := by
  have lookup := scopeLookup_eq noted.scope noted.named
  simp [identifierType, noted.symbol, Known.nameSymbol?, noLocal, isField, lookup]

/-- In a class the owner is what the symbol of a variable says. -/
theorem variableOwner_eq (noted : resolver.IsNotedAt known place node name)
    (inside : place.classes ≠ []) {symbol : Symbol}
    (found : known.nameSymbol? place name = some symbol) :
    resolver.variableOwner node =
      if symbol.kind.isVariable then symbol.enclosingType else none := by
  obtain ⟨current, outer, classes⟩ := List.exists_cons_of_ne_nil inside
  simp [variableOwner, noted.symbol, noted.scope, found, Known.scopeAt,
    Resolution.Place.currentClass, classes]

/-- A local declaration belongs to the innermost class. -/
theorem variableOwner_of_local (noted : resolver.IsNotedAt known place node name)
    (inside : place.classes ≠ []) {site : Site}
    (isLocal : place.findLocal? name = some (site.toLocal known)) :
    resolver.variableOwner node = place.classes.head? := by
  have isVariable : site.kind.isVariable = true := by
    rcases site.kind_eq with kind | kind <;> rw [kind] <;> rfl
  rw [noted.variableOwner_eq inside (by rw [Known.nameSymbol?, isLocal])]
  exact if_pos isVariable

/-- A field belongs to the class that declares it. -/
theorem variableOwner_of_field (noted : resolver.IsNotedAt known place node name)
    (inside : place.classes ≠ []) {owner type : String}
    (noLocal : place.findLocal? name = none)
    (isField : known.findField? place name = some (owner, type)) :
    resolver.variableOwner node = some owner := by
  rw [noted.variableOwner_eq inside (by rw [Known.nameSymbol?, noLocal, isField])]
  rfl

/-- What is no variable has no owner. -/
theorem variableOwner_of_none (noted : resolver.IsNotedAt known place node name)
    (noLocal : place.findLocal? name = none) (noField : known.findField? place name = none) :
    resolver.variableOwner node = none := by
  have symbol := noted.symbol
  simp only [Known.nameSymbol?, noLocal, noField] at symbol
  rw [variableOwner, symbol]
  split
  · simp [Known.typeSymbol, SymbolKind.isVariable]
  · split <;> simp [SymbolKind.isVariable]

end IsNotedAt

/-- The calls on a node, at the end of a trail, are made on a type. -/
def CallsOn (resolver : Resolver) (trail : Trail) (node : Node) (type : String) : Prop :=
  ∀ call before outer select, trail = ⟨call, before⟩ :: outer → call.kind = .invocation select →
    node.role = some .object → ∀ packageName, resolver.typeName packageName call = some type

end Resolver

/-- A name that has no owner is not recorded. -/
theorem Builder.useVariable_of_none (unowned : resolver.variableOwner node = none)
    (builder : Builder) (name : String) :
    (builder.useVariable resolver node name).model.methods = builder.model.methods := by
  rw [useVariable]
  split
  · rfl
  · split
    · rfl
    · rw [unowned]
      exact Model.methods_intern ..

namespace Resolution

/-- A call on a name is made on the type of the name. -/
theorem invokedType?_of_receiver {call : Node} {after : List Node} {select : String}
    (children : call.children = node :: after) (object : node.role = some .object)
    (kind : node.kind = .identifier name false) :
    known.invokedType? place call select = known.nameType? place name := by
  obtain ⟨id, _, role, text, line, below⟩ := node
  subst kind object
  rw [Known.invokedType?, children]
  rfl

/-- A call opens no frame and no class. -/
theorem placeAt_call (known : Known) (outer : Trail) {call : Node} {select : String}
    (kind : call.kind = .invocation select) :
    placeAt known (⟨call, []⟩ :: outer) = placeAt known outer := by
  simp [placeAt_first, below, kind, Walk.opensFrame]

variable (form : Grammar.ChainForm) (root : Grammar.Node) (lineCount : Nat) (context : List Node)

section Unit

variable {unit : Node} {trail : Trail} (regular : unit.AllRegular) (distinct : unit.HasDistinctIds)
  (leads : Leads unit trail node) (kind : node.kind = .identifier name false)

include regular distinct leads kind

/-- Symbol and scope of an identifier are those of its name at the end of its trail. -/
theorem ofUnit_isNotedAt :
    (ofUnit unit lineCount context).toResolver.IsNotedAt (knownIn unit context)
      (placeAt (knownIn unit context) trail) node name where
  named := by rw [Node.name?, kind]
  symbol := Walk.visit_symbol_of_identifier (knownIn unit context) regular distinct leads kind
  scope := Walk.visit_scope_of_identifier (knownIn unit context) regular distinct leads kind

/-- A call on a name is made on the type of the name at the end of its trail. -/
theorem callsOn_of_nameType? {type : String}
    (typed : (knownIn unit context).nameType? (placeAt (knownIn unit context) trail) name =
      some type) :
    (ofUnit unit lineCount context).toResolver.CallsOn trail node type := by
  rintro call before outer select rfl isCall object packageName
  cases leads with
  | @child _ _ _ _ after above children notName =>
      have first : before = [] :=
        (regular call above.mem_preorder).receiver (by rw [isCall]; rfl) children object
          (by rw [kind]; rfl)
      subst first
      rw [placeAt_call _ outer isCall] at typed
      have symbol := Walk.visit_symbol_of_call (knownIn unit context) regular distinct above isCall
      rw [Resolver.typeName, isCall]
      simp only [toResolver, ofUnit, symbol, Option.bind_some, Walk.callSymbol]
      rw [invokedType?_of_receiver children object kind, typed]

end Unit

/-- Of every identifier in a named class the resolution of a lowered unit says what one
declaration says. It is the nearest local declaration that is visible, else the field of the
innermost class around that has or inherits one; a call on the identifier is made on the type
of the same declaration. Where there is no such declaration nothing is recorded. -/
theorem identifier_refers :
    let unit := root.lowerUnit form
    let known := knownIn unit context
    let resolver := (ofUnit unit lineCount context).toResolver
    ∀ node ∈ unit.preorder, ∀ name, node.kind = .identifier name false → ¬ unit.NamesCall node →
      (∃ trail, Leads unit trail node) ∧
        ∀ trail, Leads unit trail node → classesAround known.qualifier.names trail ≠ [] →
          match nearest? trail name with
          | some site =>
              site.IsIn unit name ∧
                (site.kind = .localVariable ∧ resolver.identifierType node = some name ∨
                  site.kind = .parameter ∧
                    resolver.identifierType node = some (site.typeText known)) ∧
                resolver.variableOwner node =
                  (classesAround known.qualifier.names trail).head? ∧
                resolver.CallsOn trail node (erase (site.typeText known))
          | none =>
              match nearestField? known (context ++ [unit]) trail name with
              | some site =>
                  site.IsIn (context ++ [unit]) name ∧
                    resolver.identifierType node =
                      some (site.typeText known.qualifier.declared) ∧
                    resolver.variableOwner node = some site.ownerName ∧
                    resolver.CallsOn trail node (erase (site.typeText known.qualifier.declared))
              | none =>
                  ∀ builder, (Builder.visit resolver node builder).model.methods =
                    builder.model.methods := by
  intro unit known resolver node below name kind outside
  refine ⟨Syntax.exists_leads below outside, fun trail leads inside => ?_⟩
  have regular : unit.AllRegular := Grammar.Node.lowerUnit_regular form root
  have distinct : unit.HasDistinctIds := Grammar.Node.lowerUnit_hasDistinctIds form root
  have noted : resolver.IsNotedAt known (placeAt known trail) node name :=
    ofUnit_isNotedAt lineCount context regular distinct leads kind
  have callsOn {type : String} (typed : known.nameType? (placeAt known trail) name = some type) :
      resolver.CallsOn trail node type :=
    callsOn_of_nameType? lineCount context regular distinct leads kind typed
  have isLocal := findLocal?_placeAt known trail name
  have isField := findField?_placeAt unit context trail name
  rw [← classes_placeAt known trail] at inside ⊢
  cases nearest : nearest? trail name with
  | some site =>
      rw [nearest] at isLocal
      exact ⟨isIn_of_nearest? leads nearest, noted.identifierType_of_local isLocal,
        noted.variableOwner_of_local inside isLocal,
        callsOn (by rw [Known.nameType?, isLocal]; rfl)⟩
  | none =>
      rw [nearest] at isLocal
      cases field : nearestField? known (context ++ [unit]) trail name with
      | some site =>
          rw [field] at isField
          exact ⟨isIn_of_nearestField? field, noted.identifierType_of_field isLocal isField,
            noted.variableOwner_of_field inside isLocal isField,
            callsOn (by rw [Known.nameType?, isLocal, isField]; rfl)⟩
      | none =>
          rw [field] at isField
          intro builder
          have unowned := noted.variableOwner_of_none isLocal isField
          obtain ⟨id, _, role, text, line, children⟩ := node
          subst kind
          exact Builder.useVariable_of_none unowned builder name

/-- A class with a field. -/
def yardRoot : Grammar.Node :=
  .bare "program" none ""
    [.bare "class_declaration" none ""
      [.bare "identifier" (some "name") "Yard" [],
        .bare "class_body" (some "body") ""
          [.bare "field_declaration" none "Gate gate;"
            [.bare "type_identifier" (some "type") "Gate" [],
              .bare "variable_declarator" (some "declarator") "gate"
                [.bare "identifier" (some "name") "gate" []]]]]]

/-- The class `Garden`, which inherits the field. Its method is
`void enter(Latch<Key> latch) { var bolt = latch; gate.open(latch); bolt.slide(); }`. -/
def gardenRoot : Grammar.Node :=
  .bare "program" none ""
    [.bare "class_declaration" none ""
      [.bare "identifier" (some "name") "Garden" [],
        .bare "superclass" (some "superclass") "extends Yard"
          [.bare "type_identifier" none "Yard" []],
        .bare "class_body" (some "body") ""
          [.bare "method_declaration" none ""
            [.bare "identifier" (some "name") "enter" [],
              .bare "formal_parameters" (some "parameters") "(Latch<Key> latch)"
                [.bare "formal_parameter" none "Latch<Key> latch"
                  [.bare "generic_type" (some "type") "Latch<Key>"
                    [.bare "type_identifier" none "Latch" [],
                      .bare "type_arguments" none "<Key>" [.bare "type_identifier" none "Key" []]],
                    .bare "identifier" (some "name") "latch" []]],
              .bare "block" (some "body") ""
                [.bare "local_variable_declaration" none "var bolt = latch;"
                  [.bare "type_identifier" (some "type") "var" [],
                    .bare "variable_declarator" (some "declarator") "bolt = latch"
                      [.bare "identifier" (some "name") "bolt" [],
                        .bare "identifier" (some "value") "latch" []]],
                  .bare "method_invocation" none "gate.open(latch)"
                    [.bare "identifier" (some "object") "gate" [],
                      .bare "identifier" (some "name") "open" [],
                      .bare "argument_list" (some "arguments") "(latch)"
                        [.bare "identifier" none "latch" []]],
                  .bare "method_invocation" none "bolt.slide()"
                    [.bare "identifier" (some "object") "bolt" [],
                      .bare "identifier" (some "name") "slide" [],
                      .bare "argument_list" (some "arguments") "()" []]]]]]]

/-- The parameter of the method. -/
def latchParameter : Node :=
  ⟨4, .variableDecl "latch", some .parameter, "Latch<Key> latch", 1,
    [⟨5, .parameterizedType, some .type, "Latch<Key>", 1,
      [⟨6, .identifier "Latch" true, none, "Latch", 1, []⟩,
        ⟨7, .other "type_arguments", none, "<Key>", 1,
          [⟨8, .identifier "Key" true, none, "Key", 1, []⟩]⟩]⟩]⟩

/-- The local variable of the method, whose type is that of its initial value. -/
def boltDeclaration : Node :=
  ⟨10, .variableDecl "bolt", none, "bolt = latch", 1,
    [⟨11, .identifier "var" true, some .type, "var", 1, []⟩,
      ⟨12, .identifier "latch" false, some .initialValue, "latch", 1, []⟩]⟩

def gateUse : Node := ⟨14, .identifier "gate" false, some .object, "gate", 1, []⟩

def openName : Node := ⟨15, .identifier "open" false, some .name, "open", 1, []⟩

def latchUse : Node := ⟨16, .identifier "latch" false, some .argument, "latch", 1, []⟩

def openCall : Node :=
  ⟨13, .invocation "gate.open", none, "gate.open(latch)", 1, [gateUse, openName, latchUse]⟩

def boltUse : Node := ⟨18, .identifier "bolt" false, some .object, "bolt", 1, []⟩

def slideName : Node := ⟨19, .identifier "slide" false, some .name, "slide", 1, []⟩

def slideCall : Node :=
  ⟨17, .invocation "bolt.slide", none, "bolt.slide()", 1, [boltUse, slideName]⟩

def enterBlock : Node :=
  ⟨9, .block, some .body, "", 1, [boltDeclaration, openCall, slideCall]⟩

def enterMethod : Node := ⟨3, .methodDecl "enter", none, "", 1, [latchParameter, enterBlock]⟩

def yardType : Node := ⟨2, .identifier "Yard" true, some .superclass, "Yard", 1, []⟩

def gardenClass : Node :=
  ⟨1, .classDecl "Garden" .classType, none, "", 1, [yardType, enterMethod]⟩

def gardenUnit : Node := ⟨0, .compilationUnit, none, "", 1, [gardenClass]⟩

/-- The way down to a statement of the method, behind the ones before it. -/
def enterTrail (before : List Node) : Trail :=
  [⟨enterBlock, before⟩, ⟨enterMethod, [latchParameter]⟩, ⟨gardenClass, [yardType]⟩,
    ⟨gardenUnit, []⟩]

theorem leads_enterBlock : Leads gardenUnit (enterTrail []).tail enterBlock := by
  have toClass : Leads gardenUnit [⟨gardenUnit, []⟩] gardenClass := .child .root rfl rfl
  have toMethod : Leads gardenUnit [⟨gardenClass, [yardType]⟩, ⟨gardenUnit, []⟩] enterMethod :=
    toClass.child rfl rfl
  exact toMethod.child rfl rfl

/-- Only two identifiers of the unit are names of calls. -/
theorem not_namesCall {use : Node} (other : use.id ∉ [openName.id, slideName.id]) :
    ¬ gardenUnit.NamesCall use := by
  rintro ⟨call, member, callName, child, named, below⟩
  have names : ∀ call ∈ gardenUnit.preorder, ∀ callName ∈ call.children,
      call.isCallName callName = true →
        ∀ inner ∈ callName.preorder, inner.id ∈ [openName.id, slideName.id] := by
    decide
  exact other (names call member callName child named use below)

/-- The gate is the field that the garden inherits from the yard, known from another unit, and
the call is made on its type. The latch is the parameter, with the type as it is written. The bolt
is the local variable, and the call is made on the class of the latch that it starts with. -/
theorem gardenUnit_identifier_refers :
    let resolver := (ofUnit gardenUnit 9 [yardRoot.lowerUnit .flat]).toResolver
    gardenRoot.lowerUnit .flat = gardenUnit ∧
      resolver.identifierType gateUse = some "Gate" ∧
      resolver.variableOwner gateUse = some "Yard" ∧
      resolver.CallsOn (⟨openCall, []⟩ :: enterTrail [boltDeclaration]) gateUse "Gate" ∧
      resolver.identifierType latchUse = some "Latch<Key>" ∧
      resolver.variableOwner latchUse = some "Garden" ∧
      resolver.identifierType boltUse = some "bolt" ∧
      resolver.variableOwner boltUse = some "Garden" ∧
      resolver.CallsOn (⟨slideCall, []⟩ :: enterTrail [boltDeclaration, openCall]) boltUse
        "Latch" := by
  intro resolver
  have toOpen : Leads gardenUnit (enterTrail [boltDeclaration]) openCall :=
    leads_enterBlock.child rfl rfl
  have toSlide : Leads gardenUnit (enterTrail [boltDeclaration, openCall]) slideCall :=
    leads_enterBlock.child rfl rfl
  have toGate : Leads gardenUnit (⟨openCall, []⟩ :: enterTrail [boltDeclaration]) gateUse :=
    toOpen.child rfl rfl
  have toLatch : Leads gardenUnit (⟨openCall, [gateUse, openName]⟩ :: enterTrail [boltDeclaration])
      latchUse := toOpen.child rfl rfl
  have toBolt : Leads gardenUnit (⟨slideCall, []⟩ :: enterTrail [boltDeclaration, openCall])
      boltUse := toSlide.child rfl rfl
  have lowered : gardenRoot.lowerUnit .flat = gardenUnit := rfl
  have refers := identifier_refers .flat gardenRoot 9 [yardRoot.lowerUnit .flat]
  rw [lowered] at refers
  obtain ⟨-, gate⟩ :=
    refers gateUse toGate.mem_preorder "gate" rfl (not_namesCall (by decide))
  obtain ⟨-, latch⟩ :=
    refers latchUse toLatch.mem_preorder "latch" rfl (not_namesCall (by decide))
  obtain ⟨-, bolt⟩ :=
    refers boltUse toBolt.mem_preorder "bolt" rfl (not_namesCall (by decide))
  obtain ⟨-, gateType, gateOwner, gateCalls⟩ := gate _ toGate (by decide)
  obtain ⟨-, latchType, latchOwner, -⟩ := latch _ toLatch (by decide)
  obtain ⟨-, boltType, boltOwner, boltCalls⟩ := bolt _ toBolt (by decide)
  have typed : erase (Site.typeText (knownIn gardenUnit [yardRoot.lowerUnit .flat])
      ⟨enterTrail [], boltDeclaration⟩) = "Latch" := by decide +kernel
  replace boltCalls : resolver.CallsOn (⟨slideCall, []⟩ :: enterTrail [boltDeclaration, openCall])
      boltUse (erase (Site.typeText (knownIn gardenUnit [yardRoot.lowerUnit .flat])
        ⟨enterTrail [], boltDeclaration⟩)) := boltCalls
  rw [typed] at boltCalls
  refine ⟨lowered, gateType, gateOwner, gateCalls, ?_, latchOwner, ?_, boltOwner, boltCalls⟩
  · obtain ⟨isLocal, -⟩ | ⟨-, isParameter⟩ := latchType
    · cases isLocal
    · exact isParameter
  · obtain ⟨-, isLocal⟩ | ⟨isParameter, -⟩ := boltType
    · exact isLocal
    · cases isParameter

end Resolution

end JavaStructure
