/-
# The order of the context

The units of a context are merged into tables in which a later unit hides an earlier one. Where
no two of them declare classes of one simple name there is nothing to hide, so the order in
which they are given makes no difference. The unit itself may declare any of these names; it
comes last in every order.
-/

import JavaStructure.Proofs.Interchange.StatementLines
import JavaStructure.Proofs.Resolution.Agreement
import JavaStructure.Proofs.Resolution.DeclaredClasses

namespace JavaStructure

open Syntax (Node Kind)
open Names (Environment Qualifier)

theorem Text.afterLast_of_not_mem {mark : Char} {text : List Char} (absent : mark ∉ text) :
    afterLast mark text = text := by
  rw [afterLast, cutLast_of_not_mem absent]

namespace Names.Environment

/-- The simple name of a class without dots is what follows the last dot of its qualified one. -/
theorem afterLast_inPackage (names : Environment) {simple : String} (plain : '.' ∉ simple.toList) :
    Text.afterLast '.' (names.inPackage simple).toList = simple.toList := by
  rw [inPackage]
  split
  · exact Text.afterLast_of_not_mem plain
  · rw [String.toList_append, String.toList_append, List.append_assoc, Text.afterLast]
    simp [Text.cutLast_append _ plain]

/-- Classes without dots in their names have different qualified names in whatever packages. -/
theorem eq_of_inPackage_eq {first second : Environment} {simple simpleToo : String}
    (plain : '.' ∉ simple.toList) (plainToo : '.' ∉ simpleToo.toList)
    (same : first.inPackage simple = second.inPackage simpleToo) : simple = simpleToo := by
  have last := afterLast_inPackage first plain
  rw [same, afterLast_inPackage second plainToo] at last
  exact (String.toList_inj.mp last).symm

end Names.Environment

namespace Resolution

/-- Tables that are put in front of each other are those of the last tree first. -/
theorem foldl_rows {Row : Type} (rows : Node → List Row) (trees : List Node) (found : List Row) :
    trees.foldl (fun found tree => rows tree ++ found) found =
      trees.reverse.flatMap rows ++ found := by
  induction trees generalizing found with
  | nil => rfl
  | cons tree rest ih => simp [ih]

theorem lookup_of_not_mem {Value : Type} {pairs : List (String × Value)} {key : String}
    (absent : key ∉ pairs.map (·.1)) : pairs.lookup key = none := by
  rw [List.lookup_eq_none_iff]
  intro pair inside
  have apart : key ≠ pair.1 := fun same => absent (same ▸ List.mem_map_of_mem inside)
  simpa using apart

/-- Where no key is shared, the order of the tables makes no difference. -/
theorem lookup_flatMap_perm {Value : Type} {rows : Node → List (String × Value)}
    {trees others : List Node} (perm : trees.Perm others)
    (apart : ∀ first ∈ trees, ∀ second ∈ trees, first ≠ second →
      ((rows first).map (·.1)).Disjoint ((rows second).map (·.1))) (key : String) :
    (trees.flatMap rows).lookup key = (others.flatMap rows).lookup key := by
  induction perm with
  | nil => rfl
  | cons tree perm ih =>
      rw [List.flatMap_cons, List.flatMap_cons, List.lookup_append, List.lookup_append, ih]
      exact fun first inside second insideToo =>
        apart first (List.mem_cons_of_mem _ inside) second (List.mem_cons_of_mem _ insideToo)
  | swap tree treeToo rest =>
      have turned : ((rows treeToo).lookup key).or ((rows tree).lookup key) =
          ((rows tree).lookup key).or ((rows treeToo).lookup key) := by
        by_cases same : tree = treeToo
        · rw [same]
        · have disjoint := apart tree (by simp) treeToo (by simp) same
          by_cases listed : key ∈ (rows tree).map (·.1)
          · rw [lookup_of_not_mem (disjoint listed), Option.none_or, Option.or_none]
          · rw [lookup_of_not_mem listed, Option.none_or, Option.or_none]
      calc ((treeToo :: tree :: rest).flatMap rows).lookup key
        _ = (((rows treeToo).lookup key).or ((rows tree).lookup key)).or
            ((rest.flatMap rows).lookup key) := by
          rw [List.flatMap_cons, List.flatMap_cons, List.lookup_append, List.lookup_append,
            Option.or_assoc]
        _ = (((rows tree).lookup key).or ((rows treeToo).lookup key)).or
            ((rest.flatMap rows).lookup key) := by rw [turned]
        _ = ((tree :: treeToo :: rest).flatMap rows).lookup key := by
          rw [List.flatMap_cons, List.flatMap_cons, List.lookup_append, List.lookup_append,
            Option.or_assoc]
  | trans perm permToo ih ihToo =>
      refine (ih apart).trans (ihToo fun first inside second insideToo => ?_)
      exact apart first (perm.mem_iff.mpr inside) second (perm.mem_iff.mpr insideToo)

/-- The simple name of a class declaration, unless the class is anonymous. -/
def simpleName? (node : Node) : Option String :=
  match node.kind with
  | .classDecl name _ => if name.isEmpty then none else some name
  | _ => none

/-- The simple names of the classes that are declared in a tree. -/
def classNames (tree : Node) : List String :=
  tree.preorder.filterMap simpleName?

variable {tree : Node} {names : Environment} {name : String}

theorem className?_eq_map (names : Environment) (node : Node) :
    className? names node = (simpleName? node).map names.inPackage := by
  rw [className?, simpleName?]
  cases node.kind with
  | classDecl name flavor => by_cases anonymous : name.isEmpty = true <;> simp [anonymous]
  | _ => rfl

theorem nameRow?_eq_map (names : Environment) (node : Node) :
    nameRow? names node = (simpleName? node).map fun name => (name, names.inPackage name) := by
  rw [nameRow?, className?_eq_map, simpleName?]
  split
  · next name flavor kind =>
      split
      · rfl
      · simp [Node.name?, kind]
  · rfl

/-- The keys of the declared names of a tree are the simple names of its classes. -/
theorem mem_keys_declaredIn :
    name ∈ (declaredIn names tree).map (·.1) ↔ name ∈ classNames tree := by
  rw [declaredIn_eq, List.map_reverse, List.mem_reverse, List.map_filterMap, classNames]
  simp only [nameRow?_eq_map, Option.map_map, Function.comp_def, Option.map_id']

/-- The keys of the classes of a tree are the qualified names of its classes. -/
theorem exists_of_mem_keys_classesIn {q : Qualifier} {key : String}
    (listed : key ∈ (classesIn q tree).map (·.1)) :
    ∃ name ∈ classNames tree, q.names.inPackage name = key := by
  rw [classesIn_eq, List.map_reverse, List.mem_reverse, List.map_filterMap] at listed
  obtain ⟨node, inside, row⟩ := List.mem_filterMap.mp listed
  simp only [classRow?, className?_eq_map, Option.map_map] at row
  obtain ⟨name, simple, rfl⟩ := Option.map_eq_some_iff.mp row
  exact ⟨name, List.mem_filterMap.mpr ⟨node, inside, simple⟩, rfl⟩

/-- Different trees of a context declare classes of different simple names, and no such name
contains a dot. -/
structure DeclaresApart (context : List Node) : Prop where
  apart : ∀ first ∈ context, ∀ second ∈ context, first ≠ second →
    (classNames first).Disjoint (classNames second)
  plain : ∀ tree ∈ context, ∀ name ∈ classNames tree, '.' ∉ name.toList

variable {context other : List Node}

theorem DeclaresApart.declaredIn (declares : DeclaresApart context) :
    ∀ first ∈ context, ∀ second ∈ context, first ≠ second →
      ((declaredIn (Environment.ofUnit first) first).map (·.1)).Disjoint
        ((declaredIn (Environment.ofUnit second) second).map (·.1)) := by
  intro first inside second insideToo different name listed listedToo
  rw [mem_keys_declaredIn] at listed listedToo
  exact declares.apart first inside second insideToo different listed listedToo

theorem DeclaresApart.classesIn (declares : DeclaresApart context)
    (declared : List (String × String)) :
    ∀ first ∈ context, ∀ second ∈ context, first ≠ second →
      ((classesIn { names := Environment.ofUnit first, declared } first).map (·.1)).Disjoint
        ((classesIn { names := Environment.ofUnit second, declared } second).map (·.1)) := by
  intro first inside second insideToo different key listed listedToo
  obtain ⟨name, simple, qualified⟩ := exists_of_mem_keys_classesIn listed
  obtain ⟨nameToo, simpleToo, qualifiedToo⟩ := exists_of_mem_keys_classesIn listedToo
  have same := Environment.eq_of_inPackage_eq (declares.plain first inside name simple)
    (declares.plain second insideToo nameToo simpleToo) (qualified.trans qualifiedToo.symm)
  exact declares.apart first inside second insideToo different simple (same ▸ simpleToo)

theorem declared_ofUnits (trees : List Node) :
    (Declarations.ofUnits trees).declared =
      trees.reverse.flatMap fun tree =>
        JavaStructure.declaredIn (Environment.ofUnit tree) tree := by
  rw [Declarations.ofUnits, foldl_rows, List.append_nil]

/-- The classes of a unit stand in front of those of its context. -/
theorem classes_knownIn (unit : Node) (context : List Node) :
    (knownIn unit context).classes =
      JavaStructure.classesIn (knownIn unit context).qualifier unit ++
        context.reverse.flatMap fun tree =>
          JavaStructure.classesIn
            { names := Environment.ofUnit tree
              declared := (knownIn unit context).qualifier.declared } tree := by
  have merged := foldl_rows (fun tree => JavaStructure.classesIn
    { names := Environment.ofUnit tree
      declared := (knownIn unit context).qualifier.declared } tree) (context ++ [unit]) []
  rw [List.append_nil, List.reverse_append] at merged
  exact merged

section Order

variable (unit : Node) (declares : DeclaresApart context) (perm : context.Perm other)

include declares perm

/-- In whatever order the context is given, the same declared names are found. -/
theorem lookup_declared_perm (name : String) :
    (knownIn unit context).qualifier.declared.lookup name =
      (knownIn unit other).qualifier.declared.lookup name := by
  have backwards := (List.reverse_perm context).trans (perm.trans (List.reverse_perm other).symm)
  have found (trees : List Node) : (knownIn unit trees).qualifier.declared.lookup name =
      ((declaredIn (Environment.ofUnit unit) unit).lookup name).or
        ((trees.reverse.flatMap fun tree => declaredIn (Environment.ofUnit tree) tree).lookup
          name) := by
    rw [declared_knownIn, declared_ofUnits, List.lookup_append]
  rw [found, found, lookup_flatMap_perm backwards (by simpa using declares.declaredIn)]

/-- In whatever order the context is given, the tables say the same. -/
theorem knownIn_agrees : (knownIn unit context).Agrees (knownIn unit other) := by
  have backwards := (List.reverse_perm context).trans (perm.trans (List.reverse_perm other).symm)
  have agrees (names : Environment) :
      Qualifier.Agrees { names, declared := (knownIn unit context).qualifier.declared }
        { names, declared := (knownIn unit other).qualifier.declared } :=
    ⟨rfl, lookup_declared_perm unit declares perm⟩
  have own : JavaStructure.classesIn (knownIn unit context).qualifier =
      JavaStructure.classesIn (knownIn unit other).qualifier :=
    (agrees (Environment.ofUnit unit)).classesIn_eq
  have rows (tree : Node) := congrFun (agrees (Environment.ofUnit tree)).classesIn_eq tree
  refine ⟨agrees (Environment.ofUnit unit), fun name => ?_, ?_⟩
  · rw [classes_knownIn, classes_knownIn, List.lookup_append, List.lookup_append, own,
      lookup_flatMap_perm backwards (by simpa using declares.classesIn _)]
    simp only [rows]
  · rw [classes_knownIn, classes_knownIn, List.length_append, List.length_append, own,
      (backwards.flatMap_right _).length_eq]
    simp only [rows]

/-- Where the trees of a context declare classes of different names, the order of the context
makes no difference to what is known of any node of a unit, and none to its model. -/
theorem context_order_irrelevant (lineCount : Nat) :
    (∀ node, (ofUnit unit lineCount context).toResolver.symbol node =
        (ofUnit unit lineCount other).toResolver.symbol node ∧
      (ofUnit unit lineCount context).toResolver.scope node =
        (ofUnit unit lineCount other).toResolver.scope node) ∧
    ∀ path, Model.ofUnit (ofUnit unit lineCount context).toResolver unit path =
      Model.ofUnit (ofUnit unit lineCount other).toResolver unit path := by
  have agrees := knownIn_agrees unit declares perm
  have same : ofUnit unit lineCount context = ofUnit unit lineCount other := by
    rw [ofUnit, ofUnit, agrees.visit_eq]
    rfl
  rw [same]
  exact ⟨fun _ => ⟨rfl, rfl⟩, fun _ => rfl⟩

end Order

/-- The unit `class Store { Room room; }`. -/
def storeUnit : Node :=
  .bare 0 .compilationUnit
    [.bare 1 (.classDecl "Store" .classType)
      [{ Node.bare 2 (.variableDecl "room")
          [{ Node.bare 3 (.identifier "Room" true) [] with
            role := some .type, text := "Room" }] with
        role := some .member }]]

/-- The unit `class Branch extends Store {}`. -/
def branchUnit : Node :=
  .bare 0 .compilationUnit
    [.bare 1 (.classDecl "Branch" .classType)
      [{ Node.bare 2 (.identifier "Store" true) [] with
        role := some .superclass, text := "Store" }]]

/-- The unit `class Kiosk extends Branch { void open() { room; } }`. -/
def kioskUnit : Node :=
  .bare 0 .compilationUnit
    [.bare 1 (.classDecl "Kiosk" .classType)
      [{ Node.bare 2 (.identifier "Branch" true) [] with
          role := some .superclass, text := "Branch" },
      .bare 3 (.methodDecl "open") [.bare 4 (.identifier "room" false) []]]]

/-- The field is found two classes up, wherever these are declared. -/
theorem kioskUnit_context_order_irrelevant :
    (ofUnit kioskUnit 1 [branchUnit, storeUnit]).toResolver.symbol
          (.bare 4 (.identifier "room" false) []) =
        some { kind := .field, name := "room", qualifiedName := some "room",
               enclosingType := some "Store" } ∧
      ∀ path, Model.ofUnit (ofUnit kioskUnit 1 [storeUnit, branchUnit]).toResolver kioskUnit path =
        Model.ofUnit (ofUnit kioskUnit 1 [branchUnit, storeUnit]).toResolver kioskUnit path := by
  have apart : (classNames storeUnit).Disjoint (classNames branchUnit) := by
    have names : classNames storeUnit = ["Store"] ∧ classNames branchUnit = ["Branch"] := by decide
    simp [names]
  have declares : DeclaresApart [storeUnit, branchUnit] := by
    refine ⟨?_, by decide⟩
    simp only [List.forall_mem_cons, List.not_mem_nil, false_implies, implies_true, ne_eq,
      not_true_eq_false, and_true, true_and]
    exact ⟨fun _ => apart, fun _ name inside insideToo => apart insideToo inside⟩
  obtain ⟨answers, model⟩ := context_order_irrelevant kioskUnit declares
    (List.Perm.swap branchUnit storeUnit []) 1
  refine ⟨?_, model⟩
  rw [← (answers _).1]
  decide +kernel

end Resolution

end JavaStructure
