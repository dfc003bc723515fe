/-
# Searches for members

A field or a method is looked for along the chain of a class: the classes of the chain are asked
in turn, the class itself first, until one of them answers. A search that writes down whom it
asks shows how far it goes. Up to the first answer every class of the chain is asked exactly
once, and behind it none is; and what no class of the chain can answer, no class above can. The
superclasses that chains follow are those that the sources at hand name first, however the names
are written and wherever they lead.
-/

import JavaStructure.Proofs.Resolution.Fields
import JavaStructure.Proofs.Resolution.Superclasses

namespace JavaStructure

open ClassTable (Climb)
open Names (Qualifier erase)
open Syntax (Node)

namespace ClassTable

/-- Ask classes in turn until one answers: the answer, if there is one, and the classes that were
asked. -/
def askInTurn {Answer : Type} (answer? : String → Option Answer) :
    List String → Option Answer × List String
  | [] => (none, [])
  | asked :: rest =>
      match answer? asked with
      | some answer => (some answer, [asked])
      | none => ((askInTurn answer? rest).1, asked :: (askInTurn answer? rest).2)

section Asking

variable {Answer : Type} {answer? : String → Option Answer} {asked : String}
  {candidates nearer farther : List String}

theorem askInTurn_eq_findSome? :
    (askInTurn answer? candidates).1 = candidates.findSome? answer? := by
  induction candidates with
  | nil => rfl
  | cons asked rest ih =>
      rw [askInTurn, List.findSome?_cons]
      cases answer? asked with
      | some answer => rfl
      | none => exact ih

/-- The classes asked come first among the candidates, in the order of these. -/
theorem prefix_asked : (askInTurn answer? candidates).2 <+: candidates := by
  induction candidates with
  | nil => exact List.nil_prefix
  | cons asked rest ih =>
      rw [askInTurn]
      cases answer? asked with
      | some answer => simp
      | none => simpa [List.prefix_cons_inj] using ih

/-- Among different candidates one is asked once if no nearer one has an answer, and else not. -/
theorem count_asked (distinct : (nearer ++ asked :: farther).Nodup) :
    (askInTurn answer? (nearer ++ asked :: farther)).2.count asked =
      if nearer.all fun candidate => (answer? candidate).isNone then 1 else 0 := by
  induction nearer with
  | nil =>
      -- it is asked first, and among the farther ones it does not occur again
      obtain ⟨apart, -⟩ := List.nodup_cons.mp distinct
      have unasked : (askInTurn answer? farther).2.count asked = 0 :=
        List.count_eq_zero.mpr fun inside => apart (prefix_asked.subset inside)
      rw [List.nil_append, askInTurn]
      cases answer? asked with
      | some answer => simp
      | none => simp [unasked]
  | cons candidate nearer ih =>
      obtain ⟨apart, distinct⟩ := List.nodup_cons.mp distinct
      have other : candidate ≠ asked := fun same => apart (by simp [same])
      rw [List.cons_append, askInTurn]
      cases answers : answer? candidate with
      | some answer => simp [answers, other]
      | none => simp [answers, other, ih distinct]

end Asking

/-- Search the chain of a class for an answer. -/
def search {Answer : Type} (classes : ClassTable) (owner : String)
    (answer? : String → Option Answer) : Option Answer × List String :=
  askInTurn answer? (classes.chain owner)

/-- A search passes the chain of a class once, up to the nearest class with an answer. -/
structure PassesOnce {Answer : Type} (classes : ClassTable) (owner : String)
    (answer? : String → Option Answer) : Prop where
  /-- The classes asked are those of the chain, from the nearest on. -/
  inOrder : (classes.search owner answer?).2 <+: classes.chain owner
  /-- Each class of the chain is asked once if no nearer one has an answer, and else not. -/
  once : ∀ nearer asked farther, classes.chain owner = nearer ++ asked :: farther →
    (classes.search owner answer?).2.count asked =
      if nearer.all fun candidate => (answer? candidate).isNone then 1 else 0
  /-- It finds the answer of the nearest class that has one. -/
  finds_iff : ∀ answer, (classes.search owner answer?).1 = some answer ↔
    ∃ nearer asked farther, classes.chain owner = nearer ++ asked :: farther ∧
      answer? asked = some answer ∧ ∀ candidate ∈ nearer, answer? candidate = none
  /-- It asks at most one class more than the table has. -/
  bounded : (classes.search owner answer?).2.length ≤ classes.length + 1
  /-- It fails only where no class that superclasses lead to has an answer. -/
  fails_iff : (classes.search owner answer?).1 = none ↔
    ∀ ancestor, Relation.ReflTransGen classes.Extends owner ancestor → answer? ancestor = none

/-- Every search passes its chain once, whatever it asks for. -/
theorem passesOnce {Answer : Type} (classes : ClassTable) (owner : String)
    (answer? : String → Option Answer) : classes.PassesOnce owner answer? where
  inOrder := prefix_asked
  once nearer asked farther split := by
    rw [search, split]
    exact count_asked (split ▸ (isLineage_chain classes owner).nodup)
  finds_iff answer := by
    rw [search, askInTurn_eq_findSome?, List.findSome?_eq_some_iff]
  bounded := prefix_asked.length_le.trans (isLineage_chain classes owner).length_le
  fails_iff := by
    simp only [search, askInTurn_eq_findSome?, List.findSome?_eq_none_iff,
      (isLineage_chain classes owner).mem_iff_reaches]

/-- The return type that a class itself declares for a method. -/
def ownReturnType? (classes : ClassTable) (owner name : String) : Option String :=
  ((classes.lookup owner).bind fun info => info.methods.lookup name).join

end ClassTable

namespace Resolution

/-- Whatever is looked up in classes is searched for along chains: the field that a name refers
to and the method that a call without a receiver may mean, along the chains of the classes around
the place, innermost first; the type of a selected field and the type that a call returns, along
the chain of the class they are selected from. -/
structure Known.SearchesChains (known : Known) : Prop where
  field : ∀ place name, known.findField? place name =
    place.classes.findSome? fun around =>
      (known.classes.search around fun ancestor =>
        (known.classes.ownField? ancestor name).map fun type => (ancestor, type)).1
  fieldType : ∀ owner name, known.fieldType? owner name =
    (known.classes.search owner fun ancestor =>
      (known.classes.ownField? ancestor name).map erase).1
  returnType : ∀ owner name, known.classes.returnType? owner name =
    (known.classes.search owner fun ancestor => known.classes.ownReturnType? ancestor name).1
  receiver : ∀ place select name, known.implicitReceiver? place select name =
    place.currentClass.map fun current =>
      if Text.trimmed select = "this" then current
      else if Text.trimmed select = "super" then known.classes.superclassOf current
      else
        (place.classes.findSome? fun around =>
          (known.classes.search around
            (Option.guard fun ancestor => known.classes.declaresMethod ancestor name)).1).getD
        ((known.classes.superclass? current).getD current)

theorem Known.searchesChains (known : Known) : known.SearchesChains where
  field place name := by
    simp only [ClassTable.search, ClassTable.askInTurn_eq_findSome?]
    rfl
  fieldType owner name := by
    simp only [Known.fieldType?, ClassTable.inheritedField?, ClassTable.search,
      ClassTable.askInTurn_eq_findSome?, List.map_findSome?, Function.comp_def, Option.map_map]
  returnType owner name := by
    rw [ClassTable.search, ClassTable.askInTurn_eq_findSome?]
    rfl
  receiver place select name := by
    simp only [ClassTable.search, ClassTable.askInTurn_eq_findSome?,
      ← List.find?_eq_findSome?_guard]
    rfl

/-- Whether a child of a class declaration names the superclass. -/
def namesSuperclass (member : Node) : Bool :=
  match member.kind with
  | .methodDecl _ => false
  | _ => member.role = some .superclass

/-- The superclass that a class declaration names: the first one, qualified. -/
def ClassSite.superclass? (declared : List (String × String)) (site : ClassSite) :
    Option String :=
  (site.node.children.find? namesSuperclass).map fun member =>
    (site.qualifier declared).qualify member.text

theorem addSuperclass_superclass (q : Qualifier) (info : ClassInfo) (member : Node) :
    (info.addSuperclass q member).superclass =
      info.superclass.or
        (if member.role = some .superclass then some (q.qualify member.text) else none) := by
  rw [ClassInfo.addSuperclass]
  by_cases above : member.role = some .superclass
  · cases earlier : info.superclass <;> simp [above, earlier]
  · simp [above]

theorem addMember_superclass (q : Qualifier) (info : ClassInfo) (member : Node) :
    (info.addMember q member).superclass =
      info.superclass.or
        (if namesSuperclass member then some (q.qualify member.text) else none) := by
  rw [ClassInfo.addMember, namesSuperclass]
  cases member.kind with
  | variableDecl name =>
      by_cases isField : member.role = some .member
      · simp [isField]
      · simp [isField, addSuperclass_superclass]
  | methodDecl name => simp
  | _ => simp [addSuperclass_superclass]

theorem foldl_addMember_superclass (q : Qualifier) (members : List Node) (info : ClassInfo) :
    (members.foldl (ClassInfo.addMember q) info).superclass =
      info.superclass.or
        ((members.find? namesSuperclass).map fun member => q.qualify member.text) := by
  induction members generalizing info with
  | nil => simp
  | cons member rest ih =>
      calc ((member :: rest).foldl (ClassInfo.addMember q) info).superclass
        _ = (info.addMember q member).superclass.or
            ((rest.find? namesSuperclass).map fun later => q.qualify later.text) := ih _
        _ = info.superclass.or
            (((member :: rest).find? namesSuperclass).map fun first => q.qualify first.text) := by
          rw [addMember_superclass, Option.or_assoc, List.find?_cons]
          cases namesSuperclass member <;> simp

/-- The superclass recorded for a class is the one that its declaration names. -/
theorem superclass?_knownIn (unit : Node) (context : List Node) (name : String) :
    (knownIn unit context).classes.superclass? name =
      (classSite? (context ++ [unit]) name).bind
        (ClassSite.superclass? (knownIn unit context).qualifier.declared) := by
  rw [ClassTable.superclass?, lookup_classes, Option.bind_map]
  refine congrArg _ (funext fun site => ?_)
  rw [Function.comp_apply, ClassSite.info, ClassInfo.ofChildren, foldl_addMember_superclass]
  rfl

/-- Whatever a table of classes says, no climb along superclasses goes on for ever, and the climb
from a class ends with its chain: the one line up from the class in which each next class is the
superclass of the one before, none stands twice, and which breaks off only where it has to. So in
any units, wherever the superclasses they name may lead, members are looked up by searches that
end and that pass each class of a chain once. -/
theorem superclassChains_end :
    (∀ classes : ClassTable,
      (WellFounded fun later climb : Climb => climb.next? classes = some later) ∧
      ∀ name,
        (∃ last, (Climb.start name).Ends classes last) ∧
        (∀ last, (Climb.start name).Ends classes last → last.line = classes.chain name) ∧
        ∀ line, classes.IsLineage name line ↔ line = classes.chain name) ∧
    ∀ (unit : Node) (context : List Node),
      let known := knownIn unit context
      (∀ name, known.classes.superclass? name =
        (classSite? (context ++ [unit]) name).bind
          (ClassSite.superclass? known.qualifier.declared)) ∧
      known.SearchesChains ∧
      ∀ (Answer : Type) (owner : String) (answer? : String → Option Answer),
        known.classes.PassesOnce owner answer? := by
  refine ⟨fun classes => ⟨Climb.wellFounded_next classes, fun name => ?_⟩,
    fun unit context => ⟨superclass?_knownIn unit context, Known.searchesChains _, ?_⟩⟩
  · exact ⟨Climb.exists_ends classes _, fun _ ends => ends.line_eq,
      fun _ => ClassTable.isLineage_iff⟩
  · intro Answer owner answer?
    exact ClassTable.passesOnce _ owner answer?

/-- A unit with one class in it that extends another one. -/
def unitExtending (name parent : String) (members : List Node) : Node :=
  ⟨0, .compilationUnit, none, "", 1,
    [⟨1, .classDecl name .classType, none, "", 1,
      ⟨2, .identifier parent true, some .superclass, parent, 1, []⟩ :: members⟩]⟩

/-- The unit `class Day extends Night {}`. -/
def dayUnit : Node :=
  unitExtending "Day" "Night" []

/-- The unit `class Night extends Dusk {}`. -/
def nightUnit : Node :=
  unitExtending "Night" "Dusk" []

/-- The unit `class Dusk extends Day { int hours; }`, which closes the ring. -/
def duskUnit : Node :=
  unitExtending "Dusk" "Day"
    [⟨3, .variableDecl "hours", some .member, "int hours;", 1,
      [⟨4, .other "integral_type", some .type, "int", 1, []⟩]⟩]

/-- In a ring of three classes, each in a unit of its own, the climb stops before it comes round.
A field at the far end is found; a field that is nowhere is asked for once at the far end. -/
theorem dayUnit_superclassChains_end :
    let known := knownIn dayUnit [nightUnit, duskUnit]
    (∃ last, (Climb.start "Day").Ends known.classes last ∧
      last.line = ["Day", "Night", "Dusk"]) ∧
    known.findField? { classes := ["Day"] } "hours" = some ("Dusk", "int") ∧
    (known.classes.search "Day" fun ancestor =>
      known.classes.ownField? ancestor "minutes").2.count "Dusk" = 1 := by
  intro known
  have chain : known.classes.chain "Day" = ["Day", "Night", "Dusk"] := by decide +kernel
  obtain ⟨climbs, searches⟩ := superclassChains_end
  obtain ⟨-, climbs⟩ := climbs known.classes
  obtain ⟨⟨last, ends⟩, passed, -⟩ := climbs "Day"
  obtain ⟨-, -, passesOnce⟩ := searches dayUnit [nightUnit, duskUnit]
  refine ⟨⟨last, ends, (passed last ends).trans chain⟩, by decide +kernel, ?_⟩
  rw [(passesOnce _ "Day" _).once ["Day", "Night"] "Dusk" [] chain]
  decide +kernel

end Resolution

end JavaStructure
