/-
# Declared classes are linked

A class gets its qualified name twice: where the model defines it, from the package of the unit,
and where its simple name is used, from a table of declared names that is filled from all units
at hand. The unit itself comes last, so its own classes are found first, before those of the
context, imports and the language. Both ways lead to the same name, and so to the one type of
the model that the module declares.
-/

import JavaStructure.Proofs.Building.Definitions
import JavaStructure.Proofs.Grammar.CallNames
import JavaStructure.Proofs.Resolution.Condensed
import JavaStructure.Proofs.Resolution.Notes
import JavaStructure.Proofs.Text.Lines

namespace JavaStructure

open Syntax (Node Kind Flavor)

namespace Names

/-- What every identifier is that can name a class: no character of it separates names, opens
type arguments, belongs to an array or is blank, it is no primitive type, and it is not taken
for a type variable. -/
structure IsClassName (name : String) : Prop where
  nonempty : name ≠ ""
  plain : ∀ c ∈ name.toList, c ≠ '.' ∧ c ≠ '<' ∧ isBracketOrBlank c = false
  noPrimitive : name ∉ primitives
  noVariable : isTypeVariable name = false

variable {name : String}

namespace IsClassName

/-- The name of a class has nothing to erase. -/
theorem erase_eq (simple : IsClassName name) : erase name = name := by
  have noBracket : name.toList.takeWhile (fun c => c != '<') = name.toList := by
    rw [List.takeWhile_eq_self_iff]
    intro c inside
    simpa using (simple.plain c inside).2.1
  have noDot : '.' ∉ name.toList := fun inside => (simple.plain '.' inside).1 rfl
  have noBlank (c : Char) (inside : c ∈ name.toList) : Text.isBlank c = false := by
    have plain := (simple.plain c inside).2.2
    simp only [isBracketOrBlank, Bool.or_eq_false_iff] at plain
    exact plain.2
  have dots : Text.dropEndWords "...".toList name.toList = name.toList :=
    Text.dropEndWords_of_getLast (fun last => noDot (List.mem_of_getLast? last)) ['.', '.']
  calc erase name
    _ = .ofList (Text.trim (Text.dropEndWhile isBracketOrBlank name.toList)) := by
      rw [erase, Text.mapChars, eraseChars, noBracket, dots]
    _ = .ofList (Text.trim name.toList) := by
      rw [Text.dropEndWhile_of_forall fun c inside => (simple.plain c inside).2.2]
    _ = name := by rw [Text.trim_of_plain noBlank, String.ofList_toList]

theorem isFixed_eq_false (simple : IsClassName name) : Qualifier.isFixed name = false := by
  have noDot : '.' ∉ name.toList := fun inside => (simple.plain '.' inside).1 rfl
  simp [Qualifier.isFixed, noDot, simple.noPrimitive, simple.noVariable]

/-- A declared name is qualified as it is declared. -/
theorem qualifyName_eq (simple : IsClassName name) {q : Qualifier} {qualified : String}
    (declared : q.declared.lookup name = some qualified) : q.qualifyName name = qualified := by
  rw [Qualifier.qualifyName, simple.isFixed_eq_false, declared]
  rfl

end IsClassName

end Names

/-- A class is defined under the name that it has in its package. -/
theorem declaredClassName_eq (names : Names.Environment) {name : String} (named : name ≠ "") :
    declaredClassName names.packageName name = some (names.inPackage name) := by
  rw [declaredClassName, Names.Environment.inPackage, if_neg (by simpa using named)]
  split <;> rfl

namespace Resolution

variable {unit declaration node : Node} {context : List Node} {name : String} {flavor : Flavor}

/-- What the context declares comes after what the unit itself declares. -/
theorem declared_knownIn (unit : Node) (context : List Node) :
    (knownIn unit context).qualifier.declared =
      declaredIn (Names.Environment.ofUnit unit) unit ++
        (Declarations.ofUnits context).declared := by
  rw [knownIn, Declarations.ofUnits, List.foldl_append]
  rfl

/-- Where all rows of a key agree, any of them is found. -/
theorem lookup_of_mem {Value : Type} {pairs : List (String × Value)} {key : String} {value : Value}
    (inside : (key, value) ∈ pairs) (agree : ∀ pair ∈ pairs, pair.1 = key → pair.2 = value) :
    pairs.lookup key = some value := by
  rw [lookup_eq_find?]
  cases found : pairs.find? fun pair => pair.1 = key with
  | none => simpa using List.find?_eq_none.mp found (key, value) inside
  | some pair =>
      have same :=
        agree pair (List.mem_of_find?_eq_some found) (by simpa using List.find?_some found)
      rw [Option.map_some, same]

/-- The simple name of a class that the unit declares leads to its own declaration. -/
theorem lookup_declared (below : declaration ∈ unit.preorder)
    (kind : declaration.kind = .classDecl name flavor) (named : name ≠ "")
    (context : List Node) :
    (knownIn unit context).qualifier.declared.lookup name =
      some ((Names.Environment.ofUnit unit).inPackage name) := by
  have own : (declaredIn (Names.Environment.ofUnit unit) unit).lookup name =
      some ((Names.Environment.ofUnit unit).inPackage name) := by
    rw [declaredIn_eq]
    apply lookup_of_mem
    · refine List.mem_reverse.mpr (List.mem_filterMap.mpr ⟨declaration, below, ?_⟩)
      simp [nameRow?, className?, Node.name?, kind, named]
    · intro row listed same
      obtain ⟨other, -, declared⟩ := List.mem_filterMap.mp (List.mem_reverse.mp listed)
      obtain ⟨qualified, known, rfl⟩ := Option.map_eq_some_iff.mp declared
      rw [className?] at known
      split at known
      · next otherName otherFlavor otherKind =>
          obtain rfl : otherName = name := by simpa [Node.name?, otherKind] using same
          rw [if_neg (by simpa using named)] at known
          exact (Option.some.inj known).symm
      · cases known
  rw [declared_knownIn, List.lookup_append, own]
  rfl

/-- A node that names a class as a type, with or without type arguments. -/
inductive NamesType (name : String) (node : Node) : Prop
  | plain (kind : node.kind = .identifier name true)
  | parameterized (kind : node.kind = .parameterizedType) (erases : Names.erase node.text = name)

/-- A node that refers to a class: it names it as a type, or constructs it. -/
inductive MentionsClass (name : String) (node : Node) : Prop
  | type (named : NamesType name node)
  | construction {type : Node} (kind : node.kind = .creation)
      (constructed : node.childAs .identifier = some type) (named : NamesType name type)

/-- A node that names a declared class has its qualified name for its symbol. -/
theorem symbol_of_namesType (distinct : unit.HasDistinctIds) (regular : unit.AllRegular)
    (tidy : unit.AllTidy) (below : node ∈ unit.preorder) (named : NamesType name node)
    (simple : Names.IsClassName name) {qualified : String}
    (declared : (knownIn unit context).qualifier.declared.lookup name = some qualified)
    (lineCount : Nat) :
    ∃ symbol, (ofUnit unit lineCount context).toResolver.symbol node = some symbol ∧
      symbol.kind = .classSymbol ∧ symbol.qualifiedName = some qualified := by
  have noWord : node.kind.isWord = false := by
    rcases named with kind | ⟨kind, -⟩ <;> rw [kind] <;> rfl
  obtain ⟨trail, leads⟩ := Syntax.exists_leads below (tidy.not_namesCall noWord)
  have noted := Walk.visit_symbol (knownIn unit context) distinct leads (leads.isOpen regular)
  have qualifies := simple.qualifyName_eq declared
  have symbol : (ofUnit unit lineCount context).toResolver.symbol node =
      Walk.symbolAt? (knownIn unit context) trail node := noted
  cases named with
  | plain kind =>
      refine ⟨(knownIn unit context).typeSymbol name, ?_, rfl, ?_⟩
      · rw [symbol, Walk.symbolAt?, kind]
      · rw [Known.typeSymbol, Names.Qualifier.qualify, simple.erase_eq, qualifies]
  | parameterized kind erases =>
      refine ⟨Walk.parameterizedSymbol (knownIn unit context) node.text, ?_, rfl, ?_⟩
      · rw [symbol, Walk.symbolAt?, kind]
      · rw [Walk.parameterizedSymbol, Names.Qualifier.qualify, erases, qualifies]

/-- Whatever mentions a declared class refers to its qualified name. -/
theorem typeName_of_mentionsClass (distinct : unit.HasDistinctIds) (regular : unit.AllRegular)
    (tidy : unit.AllTidy) (below : node ∈ unit.preorder) (mentions : MentionsClass name node)
    (simple : Names.IsClassName name) {qualified : String}
    (declared : (knownIn unit context).qualifier.declared.lookup name = some qualified)
    (lineCount : Nat) (packageName : String) :
    (ofUnit unit lineCount context).toResolver.typeName packageName node = some qualified := by
  cases mentions with
  | type named =>
      obtain ⟨symbol, noted, isClass, known⟩ :=
        symbol_of_namesType distinct regular tidy below named simple declared lineCount
      cases named with
      | plain kind => simp [Resolver.typeName, Resolver.identifierType, kind, noted, isClass, known]
      | parameterized kind _ => simp [Resolver.typeName, kind, noted, known]
  | @construction type kind constructed named =>
      have typeBelow : type ∈ unit.preorder := Node.mem_preorder_trans below
        (Node.mem_preorder_of_mem_children (List.mem_of_find?_eq_some constructed)
          type.mem_preorder_self)
      obtain ⟨symbol, noted, isClass, known⟩ :=
        symbol_of_namesType distinct regular tidy typeBelow named simple declared lineCount
      simp [Resolver.typeName, Resolver.identifierType, kind, constructed, noted, isClass, known]

/-- In a unit, whatever classes its context declares, everything that mentions a class of the
unit refers to the qualified name under which the model defines the class, and the one type of
this name in the model is declared by the module. -/
theorem declaredClass_linked (form : Grammar.ChainForm) (root : Grammar.Node)
    (wellNamed : root.NamesCalls) (context : List Node) (lineCount : Nat) (path : String)
    {declaration : Node} {name : String} {flavor : Flavor}
    (below : declaration ∈ (root.lowerUnit form).preorder)
    (kind : declaration.kind = .classDecl name flavor) (simple : Names.IsClassName name) :
    ∃ qualified type,
      declaredClassName (ofUnit (root.lowerUnit form) lineCount context).packageName name =
          some qualified ∧
        (Model.ofUnit (ofUnit (root.lowerUnit form) lineCount context).toResolver
          (root.lowerUnit form) path).IsDeclared type ∧
        (∀ other, (Model.ofUnit (ofUnit (root.lowerUnit form) lineCount context).toResolver
          (root.lowerUnit form) path).nameOf other = some qualified ↔ other = type) ∧
        ∀ node ∈ (root.lowerUnit form).preorder, MentionsClass name node →
          (ofUnit (root.lowerUnit form) lineCount context).toResolver.typeName
            (ofUnit (root.lowerUnit form) lineCount context).packageName node =
              some qualified := by
  have tidy := root.lowerUnit_allTidy form wellNamed
  have distinct := Grammar.Node.lowerUnit_hasDistinctIds form root
  have regular := root.lowerUnit_regular form
  generalize root.lowerUnit form = unit at *
  have named := declaredClassName_eq (Names.Environment.ofUnit unit) simple.nonempty
  have defined := ofUnit_defines (ofUnit unit lineCount context).toResolver unit path
    (fun inner inside => (tidy inner inside).leaf) below kind named
  have closed := Model.ofUnit_closed (ofUnit unit lineCount context).toResolver unit path
  obtain ⟨type, declared, only⟩ := closed.exists_declared defined
  refine ⟨_, type, named, declared, only, fun node inside mentions => ?_⟩
  exact typeName_of_mentionsClass distinct regular tidy inside mentions simple
    (lookup_declared below kind simple.nonempty context) lineCount _

/-- The unit `class Library { Shelf shelf = new Shelf().sorted(); class Shelf {} }`. -/
def libraryUnit : Grammar.Node :=
  .bare "program" none ""
    [.bare "class_declaration" none ""
      [.bare "identifier" (some "name") "Library" [],
      .bare "class_body" (some "body") ""
        [.bare "field_declaration" none ""
          [.bare "type_identifier" (some "type") "Shelf" [],
          .bare "variable_declarator" (some "declarator") ""
            [.bare "identifier" (some "name") "shelf" [],
            .bare "method_invocation" (some "value") ""
              [.bare "object_creation_expression" (some "object") "new Shelf()"
                [.bare "type_identifier" (some "type") "Shelf" []],
              .bare "identifier" (some "name") "sorted" []]]],
        .bare "class_declaration" none ""
          [.bare "identifier" (some "name") "Shelf" [], .bare "class_body" (some "body") "" []]]]]

/-- A unit of another package with a class of the same simple name. -/
def archiveUnit : Node :=
  .bare 0 .compilationUnit
    [{ Node.bare 1 .packageDecl [] with text := "package archive;" },
    .bare 2 (.classDecl "Shelf" .classType) []]

theorem libraryUnit_namesCalls : libraryUnit.NamesCalls := by
  simp [Grammar.Node.namesCalls_mk, Grammar.Node.namesByWord_iff, Grammar.Node.IsWord,
    Grammar.Node.childOf, libraryUnit, Grammar.Node.bare]

theorem libraryUnit_declaredClass_linked :
    ∃ type,
      (Model.ofUnit (ofUnit (libraryUnit.lowerUnit .flat) 1 [archiveUnit]).toResolver
        (libraryUnit.lowerUnit .flat) "Library.java").IsDeclared type ∧
      (∀ other, (Model.ofUnit (ofUnit (libraryUnit.lowerUnit .flat) 1 [archiveUnit]).toResolver
        (libraryUnit.lowerUnit .flat) "Library.java").nameOf other = some "Shelf" ↔
          other = type) ∧
      ∃ node ∈ (libraryUnit.lowerUnit .flat).preorder, node.kind = .creation ∧
        (ofUnit (libraryUnit.lowerUnit .flat) 1 [archiveUnit]).toResolver.typeName "" node =
          some "Shelf" := by
  have simple : Names.IsClassName "Shelf" :=
    ⟨by decide, by simp [Names.isBracketOrBlank, Text.isBlank], by decide, by decide⟩
  obtain ⟨declaration, below, kind⟩ :
      ∃ declaration ∈ (libraryUnit.lowerUnit .flat).preorder,
        declaration.kind = .classDecl "Shelf" .classType := by
    decide +kernel
  obtain ⟨qualified, type, named, declared, only, linked⟩ :=
    declaredClass_linked .flat libraryUnit libraryUnit_namesCalls [archiveUnit] 1 "Library.java"
      below kind simple
  obtain ⟨node, inside, constructs, constructed⟩ :
      ∃ node ∈ (libraryUnit.lowerUnit .flat).preorder, node.kind = .creation ∧
        (node.childAs .identifier).map (·.kind) = some (.identifier "Shelf" true) := by
    decide +kernel
  obtain ⟨mentioned, found, names⟩ := Option.map_eq_some_iff.mp constructed
  have mentions : MentionsClass "Shelf" node := .construction constructs found (.plain names)
  have packageName : (ofUnit (libraryUnit.lowerUnit .flat) 1 [archiveUnit]).packageName = "" := by
    decide +kernel
  rw [packageName] at named linked
  obtain rfl := Option.some.inj named
  exact ⟨type, declared, only, node, inside, constructs, linked node inside mentions⟩

end Resolution

end JavaStructure
