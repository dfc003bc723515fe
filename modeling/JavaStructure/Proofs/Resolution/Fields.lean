/-
# Field declarations

The field that a name refers to is a declaration in one of the units at hand: a member of the
class declaration that counts for a class around the name or for one of its superclasses. The
tables that name resolution searches say of each field what its declaration says.
-/

import JavaStructure.Proofs.Resolution.Places
import JavaStructure.Resolution

namespace JavaStructure.Resolution

open Syntax (Node Kind Role Trail)
open Names (Environment Qualifier objectType)

/-- The value found under a key is that of the first element with the key. -/
theorem lookup_filterMap {Site Value : Type} (key : Site → Option String) (value : Site → Value)
    (sites : List Site) (wanted : String) :
    (sites.filterMap fun site => (key site).map fun name => (name, value site)).lookup wanted =
      (sites.find? fun site => key site = some wanted).map value := by
  induction sites with
  | nil => rfl
  | cons site rest ih =>
      cases named : key site with
      | none => simp [named, ih]
      | some name =>
          by_cases same : name = wanted
          · simp [named, same]
          · have apart : (wanted == name) = false := by simpa using Ne.symm same
            simp [named, same, List.lookup_cons, apart, ih]

theorem lookup_eq_find? {Value : Type} (pairs : List (String × Value)) (wanted : String) :
    pairs.lookup wanted = (pairs.find? fun pair => pair.1 = wanted).map (·.2) := by
  simpa using lookup_filterMap (fun pair => some pair.1) (·.2) pairs wanted

/-- A node of one of the units at hand. -/
structure ClassSite where
  unit : Node
  node : Node

namespace ClassSite

/-- The qualified name of the class that is declared here, if one is. -/
def name? (site : ClassSite) : Option String :=
  className? (Environment.ofUnit site.unit) site.node

/-- What qualifies the names in the declaration. -/
def qualifier (declared : List (String × String)) (site : ClassSite) : Qualifier :=
  { names := Environment.ofUnit site.unit, declared }

/-- The members of the class. -/
def info (declared : List (String × String)) (site : ClassSite) : ClassInfo :=
  ClassInfo.ofChildren (site.qualifier declared) site.node.children

end ClassSite

/-- The nodes of some units, in source order. -/
def sitesIn (units : List Node) : List ClassSite :=
  units.flatMap fun unit => unit.preorder.map (ClassSite.mk unit)

theorem sitesIn_cons (unit : Node) (rest : List Node) :
    sitesIn (unit :: rest) = unit.preorder.map (ClassSite.mk unit) ++ sitesIn rest :=
  List.flatMap_cons

/-- The declaration that counts for a class: the last one of its qualified name. -/
def classSite? (units : List Node) (name : String) : Option ClassSite :=
  (sitesIn units).reverse.find? fun site => site.name? = some name

/-- The row of a class declaration in the table. -/
def classRow? (q : Qualifier) (node : Node) : Option (String × ClassInfo) :=
  (className? q.names node).map fun name => (name, ClassInfo.ofChildren q node.children)

theorem classesAmong_eq (q : Qualifier) (nodes : List Node) :
    classesIn.classesAmong q nodes = nodes.reverse.flatMap (classesIn q) := by
  induction nodes with
  | nil => rfl
  | cons node rest ih => simp [classesIn.classesAmong, ih]

/-- The classes of a tree are those of its nodes, latest first. -/
theorem classesIn_eq (q : Qualifier) (node : Node) :
    classesIn q node = (node.preorder.filterMap (classRow? q)).reverse := by
  refine Node.collected_eq (fun node => ?_) node
  rw [← classesAmong_eq]
  obtain ⟨id, kind, role, text, line, children⟩ := node
  cases kind with
  | classDecl name flavor =>
      rw [classesIn]
      simp only [classRow?, className?]
      split <;> rfl
  | _ => rfl

theorem foldl_classesIn (declared : List (String × String)) (units : List Node)
    (found : ClassTable) :
    units.foldl (fun found unit =>
        classesIn { names := Environment.ofUnit unit, declared } unit ++ found) found =
      ((sitesIn units).filterMap fun site =>
        site.name?.map fun name => (name, site.info declared)).reverse ++ found := by
  induction units generalizing found with
  | nil => rfl
  | cons unit rest ih =>
      calc (unit :: rest).foldl (fun found unit =>
            classesIn { names := Environment.ofUnit unit, declared } unit ++ found) found
        _ = ((sitesIn rest).filterMap fun site =>
              site.name?.map fun name => (name, site.info declared)).reverse ++
            ((unit.preorder.filterMap
              (classRow? { names := Environment.ofUnit unit, declared })).reverse ++ found) := by
          rw [List.foldl_cons, ih, classesIn_eq]
        _ = ((unit.preorder.map (ClassSite.mk unit) ++ sitesIn rest).filterMap fun site =>
              site.name?.map fun name => (name, site.info declared)).reverse ++ found := by
          rw [List.filterMap_append, List.reverse_append, List.append_assoc, List.filterMap_map]
          rfl
        _ = _ := by rw [sitesIn_cons]

variable {unit : Node} {context : List Node}

/-- The class known under a name is the declaration that counts for it. -/
theorem lookup_classes (unit : Node) (context : List Node) (name : String) :
    (knownIn unit context).classes.lookup name =
      (classSite? (context ++ [unit]) name).map
        (ClassSite.info (knownIn unit context).qualifier.declared) := by
  have classes := foldl_classesIn (knownIn unit context).qualifier.declared (context ++ [unit]) []
  rw [List.append_nil, ← List.filterMap_reverse] at classes
  rw [classSite?, ← lookup_filterMap]
  exact congrArg (List.lookup name) classes

/-- The name of a field that is declared here. -/
def fieldName? (node : Node) : Option String :=
  match node.kind with
  | .variableDecl name => if node.role = some .member then some name else none
  | _ => none

/-- The declaration of a field, with that of its class. -/
structure FieldSite where
  owner : ClassSite
  node : Node

namespace FieldSite

/-- The qualified name of the class that declares the field. -/
def ownerName (site : FieldSite) : String :=
  site.owner.name?.getD ""

/-- The text of the declared type. -/
def typeText (declared : List (String × String)) (site : FieldSite) : String :=
  match site.node.childAs .type with
  | some type => (site.owner.qualifier declared).qualifyText type.text
  | none => objectType

end FieldSite

/-- The declaration of a field in a class: the first of its name. -/
def ClassSite.field? (site : ClassSite) (name : String) : Option FieldSite :=
  (site.node.children.find? fun member => fieldName? member = some name).map (FieldSite.mk site)

/-- The declaration of a field that a class declares itself. -/
def fieldSite? (units : List Node) (owner name : String) : Option FieldSite :=
  (classSite? units owner).bind (·.field? name)

/-- The declaration of the field that a name refers to at the end of a trail: the classes
around are searched innermost first, each with its known superclasses. -/
def nearestField? (known : Known) (units : List Node) (trail : Trail) (name : String) :
    Option FieldSite :=
  (classesAround known.qualifier.names trail).findSome? fun around =>
    (known.classes.chain around).findSome? fun ancestor => fieldSite? units ancestor name

theorem addSuperclass_fields (q : Qualifier) (info : ClassInfo) (member : Node) :
    (info.addSuperclass q member).fields = info.fields := by
  rw [ClassInfo.addSuperclass]
  split <;> rfl

theorem addMember_fields (q : Qualifier) (info : ClassInfo) (site : ClassSite)
    (declared : List (String × String)) (same : q = site.qualifier declared) (member : Node) :
    (info.addMember q member).fields =
      info.fields ++ ((fieldName? member).map fun name =>
        (name, (FieldSite.mk site member).typeText declared)).toList := by
  rw [ClassInfo.addMember, fieldName?]
  cases member.kind with
  | variableDecl name =>
      dsimp only
      split
      · subst same; rfl
      · rw [addSuperclass_fields]; exact (List.append_nil _).symm
  | methodDecl name => exact (List.append_nil _).symm
  | _ => rw [addSuperclass_fields]; exact (List.append_nil _).symm

theorem foldl_addMember_fields (site : ClassSite) (declared : List (String × String))
    (members : List Node) (info : ClassInfo) :
    (members.foldl (ClassInfo.addMember (site.qualifier declared)) info).fields =
      info.fields ++ members.filterMap fun member => (fieldName? member).map fun name =>
        (name, (FieldSite.mk site member).typeText declared) := by
  induction members generalizing info with
  | nil => exact (List.append_nil _).symm
  | cons member rest ih =>
      rw [List.foldl_cons, ih, addMember_fields _ _ site declared rfl, List.filterMap_cons,
        List.append_assoc]
      cases fieldName? member <;> rfl

/-- The type known of a field is that of its declaration. -/
theorem lookup_fields (site : ClassSite) (declared : List (String × String)) (name : String) :
    (site.info declared).fields.lookup name =
      (site.field? name).map (FieldSite.typeText declared) := by
  calc (site.info declared).fields.lookup name
    _ = (site.node.children.filterMap fun member => (fieldName? member).map fun name =>
        (name, (FieldSite.mk site member).typeText declared)).lookup name := by
      rw [ClassSite.info, ClassInfo.ofChildren, foldl_addMember_fields, List.nil_append]
    _ = (site.node.children.find? fun member => fieldName? member = some name).map fun member =>
        (FieldSite.mk site member).typeText declared :=
      lookup_filterMap fieldName? (fun member => (FieldSite.mk site member).typeText declared)
        site.node.children name
    _ = (site.field? name).map (FieldSite.typeText declared) := by
      rw [ClassSite.field?, Option.map_map]
      rfl

theorem ownField?_eq (unit : Node) (context : List Node) (owner name : String) :
    (knownIn unit context).classes.ownField? owner name =
      (fieldSite? (context ++ [unit]) owner name).map
        (FieldSite.typeText (knownIn unit context).qualifier.declared) := by
  rw [ClassTable.ownField?, lookup_classes, fieldSite?, Option.bind_map, Option.map_bind]
  exact congrArg _ (funext fun site => lookup_fields site _ name)

/-- A declaration found for a class is one of the class. -/
theorem ownerName_of_fieldSite? {units : List Node} {owner name : String} {site : FieldSite}
    (found : fieldSite? units owner name = some site) : site.ownerName = owner := by
  obtain ⟨classSite, counts, declares⟩ := Option.bind_eq_some_iff.mp found
  obtain ⟨member, -, rfl⟩ := Option.map_eq_some_iff.mp declares
  have named : classSite.name? = some owner := by simpa using List.find?_some counts
  simp [FieldSite.ownerName, named]

/-- A field of a class in one of some units. -/
structure FieldSite.IsIn (units : List Node) (site : FieldSite) (name : String) : Prop where
  unit : site.owner.unit ∈ units
  owner : site.owner.node ∈ site.owner.unit.preorder
  member : site.node ∈ site.owner.node.children
  names : fieldName? site.node = some name

theorem isIn_of_nearestField? {known : Known} {units : List Node} {trail : Trail}
    {name : String} {site : FieldSite}
    (nearest : nearestField? known units trail name = some site) :
    site.IsIn units name := by
  obtain ⟨around, -, found⟩ := List.exists_of_findSome?_eq_some nearest
  obtain ⟨ancestor, -, found⟩ := List.exists_of_findSome?_eq_some found
  obtain ⟨classSite, counts, declares⟩ := Option.bind_eq_some_iff.mp found
  obtain ⟨member, first, rfl⟩ := Option.map_eq_some_iff.mp declares
  have isSite := List.mem_reverse.mp (List.mem_of_find?_eq_some counts)
  obtain ⟨unit, isUnit, isNode⟩ := List.mem_flatMap.mp isSite
  obtain ⟨node, below, rfl⟩ := List.mem_map.mp isNode
  exact ⟨isUnit, below, List.mem_of_find?_eq_some first, by simpa using List.find?_some first⟩

/-- The field that a name refers to has the owner and the type that its declaration says. -/
theorem findField?_placeAt (unit : Node) (context : List Node) (trail : Trail) (name : String) :
    (knownIn unit context).findField? (placeAt (knownIn unit context) trail) name =
      (nearestField? (knownIn unit context) (context ++ [unit]) trail name).map fun site =>
        (site.ownerName, site.typeText (knownIn unit context).qualifier.declared) := by
  have own (ancestor : String) :
      (((knownIn unit context).classes.ownField? ancestor name).map fun type =>
          (ancestor, type)) =
        (fieldSite? (context ++ [unit]) ancestor name).map fun site =>
          (site.ownerName, site.typeText (knownIn unit context).qualifier.declared) := by
    rw [ownField?_eq, Option.map_map]
    refine Option.map_congr fun site found => ?_
    rw [ownerName_of_fieldSite? found]
    rfl
  simp only [Known.findField?, ClassTable.inheritedField?, classes_placeAt, nearestField?, own,
    List.map_findSome?, Function.comp_def]

end JavaStructure.Resolution
