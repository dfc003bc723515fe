/-
# Chains of superclasses

Superclasses are recorded as the sources name them, so what is recorded need not be a hierarchy:
a class may be its own superclass, and classes may extend each other in a ring that runs through
several units. A climb goes from a class to its superclass and on, and keeps the names it has met
in a set, until no superclass is recorded or the next one was met before. Every step meets a new
one of the finitely many names that are recorded as superclasses, so no climb goes on for ever,
whatever the table says. The chain of a class is the line that the climb from it leaves behind,
and it is the only line of its kind.
-/

import Mathlib.Data.Finset.Card
import Mathlib.Data.List.Chain
import Mathlib.Logic.Relation
import JavaStructure.Classes

namespace JavaStructure.ClassTable

variable {classes : ClassTable} {name child parent : String} {line other : List String}

variable (classes) in
/-- One class is recorded as the superclass of another. -/
def Extends (child parent : String) : Prop :=
  classes.superclass? child = some parent

theorem Extends.unique {another : String} (above : classes.Extends child parent)
    (aboveToo : classes.Extends child another) : parent = another :=
  Option.some.inj (above.symm.trans aboveToo)

variable (classes) in
/-- The names that are recorded as superclasses. -/
def recorded : Finset String :=
  (classes.filterMap fun row => row.2.superclass).toFinset

theorem Extends.mem_recorded (above : classes.Extends child parent) :
    parent ∈ classes.recorded := by
  obtain ⟨info, listed, named⟩ := Option.bind_eq_some_iff.mp above
  obtain ⟨before, behind, rfl, -⟩ := List.lookup_eq_some_iff.mp listed
  simp [recorded, named]

theorem card_recorded_le : classes.recorded.card ≤ classes.length :=
  (List.toFinset_card_le _).trans (List.length_filterMap_le _ _)

variable (classes) in
/-- A line of classes from one class up. Each next class is the superclass of the one before, no
class stands in it twice, and it breaks off only where no superclass is recorded or the next one
stands in it already. -/
structure IsLineage (name : String) (line : List String) : Prop where
  head : line.head? = some name
  nodup : line.Nodup
  linked : line.IsChain classes.Extends
  full : ∀ last parent, line.getLast? = some last → classes.Extends last parent → parent ∈ line

/-- Of two lines up from one class, one continues the other. -/
theorem continues_or_continued {first second : List String} (linked : first.IsChain classes.Extends)
    (linkedToo : second.IsChain classes.Extends) (sameHead : first.head? = second.head?) :
    first <+: second ∨ second <+: first := by
  induction first generalizing second with
  | nil => exact .inl List.nil_prefix
  | cons lowest firstRest ih =>
      obtain ⟨secondRest, rfl⟩ := List.head?_eq_some_iff.mp sameHead.symm
      cases firstRest with
      | nil => exact .inl (by simp)
      | cons parent firstRest =>
          cases secondRest with
          | nil => exact .inr (by simp)
          | cons another secondRest =>
              obtain ⟨above, linked⟩ := List.isChain_cons_cons.mp linked
              obtain ⟨aboveToo, linkedToo⟩ := List.isChain_cons_cons.mp linkedToo
              obtain rfl := above.unique aboveToo
              simpa only [List.prefix_cons_inj] using ih linked linkedToo rfl

namespace IsLineage

/-- With each of its classes a lineage holds the superclass of the class. -/
theorem mem_of_extends (lineage : classes.IsLineage name line) (inside : child ∈ line)
    (above : classes.Extends child parent) : parent ∈ line := by
  obtain ⟨before, behind, rfl⟩ := List.append_of_mem inside
  -- inside the line the superclass is the next class; at its end the line breaks off with reason
  cases behind with
  | nil => exact lineage.full child parent (by simp) above
  | cons another behind =>
      obtain ⟨-, aboveToo, -⟩ := List.isChain_append_cons_cons.mp lineage.linked
      simp [above.unique aboveToo]

/-- A lineage cannot be continued to another one: the class behind its end would stand in it. -/
theorem eq_of_continued (lineage : classes.IsLineage name line)
    (lineageToo : classes.IsLineage name other) (shorter : line <+: other) : line = other := by
  obtain ⟨rest, rfl⟩ := shorter
  cases rest with
  | nil => exact (List.append_nil line).symm
  | cons parent rest =>
      obtain ⟨lowest, line, rfl⟩ := List.exists_cons_of_ne_nil (l := line) fun empty => by
        simpa [empty] using lineage.head
      -- the other one goes on with the superclass of the last class, which stands in the line
      have above := lineageToo.linked.rel_getLast_head_of_append (by simp) (by simp)
      have inside := lineage.full _ _ (List.getLast?_eq_getLast_of_ne_nil (by simp)) above
      have apart := (List.nodup_append.mp lineageToo.nodup).2.2 parent inside parent (by simp)
      exact absurd rfl apart

/-- A class has one lineage only. -/
theorem unique (lineage : classes.IsLineage name line)
    (lineageToo : classes.IsLineage name other) : line = other := by
  rcases continues_or_continued lineage.linked lineageToo.linked
    (lineage.head.trans lineageToo.head.symm) with shorter | shorter
  · exact lineage.eq_of_continued lineageToo shorter
  · exact (lineageToo.eq_of_continued lineage shorter).symm

/-- A lineage holds the classes that superclasses lead to from its first class, and no other. -/
theorem mem_iff_reaches (lineage : classes.IsLineage name line) {ancestor : String} :
    ancestor ∈ line ↔ Relation.ReflTransGen classes.Extends name ancestor := by
  constructor
  · intro inside
    obtain ⟨rest, rfl⟩ := List.head?_eq_some_iff.mp lineage.head
    exact lineage.linked.induction (Relation.ReflTransGen classes.Extends name) _
      (fun _ _ above reached => reached.tail above) (fun _ => .refl) ancestor inside
  · intro reached
    induction reached with
    | refl => exact List.mem_of_head? lineage.head
    | tail _ above inside => exact lineage.mem_of_extends inside above

/-- A lineage has at most one class more than the table. -/
theorem length_le (lineage : classes.IsLineage name line) : line.length ≤ classes.length + 1 := by
  obtain ⟨rest, rfl⟩ := List.head?_eq_some_iff.mp lineage.head
  obtain ⟨new, distinct⟩ := List.nodup_cons.mp lineage.nodup
  -- the first class need not be recorded anywhere, so it is counted by itself
  have behind : rest.toFinset ⊆ classes.recorded := by
    intro ancestor inside
    have inside := List.mem_toFinset.mp inside
    cases lineage.mem_iff_reaches.mp (List.mem_cons_of_mem name inside) with
    | refl => exact absurd inside new
    | tail _ above => exact above.mem_recorded
  calc (name :: rest).length
    _ = rest.toFinset.card + 1 := by rw [List.toFinset_card_of_nodup distinct, List.length_cons]
    _ ≤ classes.recorded.card + 1 := Nat.succ_le_succ (Finset.card_le_card behind)
    _ ≤ classes.length + 1 := Nat.succ_le_succ card_recorded_le

end IsLineage

/-- A climb under way: the classes passed so far, the set of their names, with which the next one
is compared, and the class where the climb stands. -/
structure Climb where
  line : List String
  met : Finset String
  current : String

namespace Climb

variable {climb later last : Climb}

/-- A climb that stands at the class it starts from. -/
def start (name : String) : Climb :=
  { line := [name], met := {name}, current := name }

/-- The climb after a step up to a class. -/
def stepTo (climb : Climb) (parent : String) : Climb :=
  { line := climb.line ++ [parent], met := insert parent climb.met, current := parent }

variable (classes) in
/-- One step up, if a superclass is recorded and was not met before. -/
def next? (climb : Climb) : Option Climb :=
  match classes.superclass? climb.current with
  | none => none
  | some parent => if parent ∈ climb.met then none else some (climb.stepTo parent)

theorem next?_eq_some_iff :
    climb.next? classes = some later ↔
      ∃ parent, classes.Extends climb.current parent ∧ parent ∉ climb.met ∧
        climb.stepTo parent = later := by
  unfold next? Extends
  split <;> simp_all

theorem next?_eq_none_iff :
    climb.next? classes = none ↔
      ∀ parent, classes.Extends climb.current parent → parent ∈ climb.met := by
  unfold next? Extends
  split <;> simp_all

variable (classes) in
/-- A climb goes on, step by step, to its end. -/
inductive Ends : Climb → Climb → Prop where
  | here {climb : Climb} : climb.next? classes = none → Ends climb climb
  | onward {climb later last : Climb} :
      climb.next? classes = some later → Ends later last → Ends climb last

variable (classes) in
/-- The recorded superclasses that a climb has not met. -/
def unmet (climb : Climb) : Finset String :=
  classes.recorded \ climb.met

/-- Each step meets one of them, so they become fewer. -/
theorem card_unmet_lt (step : climb.next? classes = some later) :
    (later.unmet classes).card < (climb.unmet classes).card := by
  obtain ⟨parent, above, new, rfl⟩ := next?_eq_some_iff.mp step
  have still : parent ∈ climb.unmet classes := Finset.mem_sdiff.mpr ⟨above.mem_recorded, new⟩
  have left : (climb.stepTo parent).unmet classes = (climb.unmet classes).erase parent :=
    Finset.sdiff_insert _ _ _
  rw [left]
  exact Finset.card_erase_lt_of_mem still

variable (classes) in
/-- There is no endless sequence of steps, wherever it starts and whatever was met before. -/
theorem wellFounded_next :
    WellFounded fun later climb : Climb => climb.next? classes = some later :=
  Subrelation.wf card_unmet_lt (measure fun climb : Climb => (climb.unmet classes).card).wf

variable (classes) in
/-- Every climb comes to its end. -/
theorem exists_ends (climb : Climb) : ∃ last, climb.Ends classes last := by
  induction climb using (wellFounded_next classes).induction with
  | h climb ih =>
      cases step : climb.next? classes with
      | none => exact ⟨climb, .here step⟩
      | some later =>
          obtain ⟨last, ends⟩ := ih later step
          exact ⟨last, .onward step ends⟩

variable (classes) in
/-- What holds of a climb at every moment. -/
structure IsOnTheWay (name : String) (climb : Climb) : Prop where
  head : climb.line.head? = some name
  nodup : climb.line.Nodup
  linked : climb.line.IsChain classes.Extends
  current : climb.line.getLast? = some climb.current
  met : ∀ passed, passed ∈ climb.met ↔ passed ∈ climb.line

theorem isOnTheWay_start : IsOnTheWay classes name (start name) where
  head := rfl
  nodup := List.nodup_singleton name
  linked := List.isChain_singleton name
  current := rfl
  met := by simp [start]

namespace IsOnTheWay

/-- A step keeps it: the class stepped to is new, and the superclass of the one before. -/
theorem next (onTheWay : IsOnTheWay classes name climb) (step : climb.next? classes = some later) :
    IsOnTheWay classes name later := by
  obtain ⟨parent, above, new, rfl⟩ := next?_eq_some_iff.mp step
  -- the set answers for the line: what it does not hold the line does not hold
  have newToo : parent ∉ climb.line := fun inside => new ((onTheWay.met parent).mpr inside)
  exact
    { head := by simp [stepTo, onTheWay.head]
      nodup := by simpa [stepTo] using onTheWay.nodup.concat newToo
      linked := onTheWay.linked.append (List.isChain_singleton parent) (by
        simpa [onTheWay.current] using above)
      current := List.getLast?_concat
      met := by simp [stepTo, onTheWay.met, or_comm] }

/-- So does a climb as a whole. -/
theorem of_ends (onTheWay : IsOnTheWay classes name climb) (ends : climb.Ends classes last) :
    IsOnTheWay classes name last := by
  induction ends with
  | here _ => exact onTheWay
  | onward step _ ih => exact ih (onTheWay.next step)

/-- Where a climb stops, the line can go no further. -/
theorem isLineage (onTheWay : IsOnTheWay classes name climb) (stops : climb.next? classes = none) :
    classes.IsLineage name climb.line where
  head := onTheWay.head
  nodup := onTheWay.nodup
  linked := onTheWay.linked
  full atEnd parent isLast above := by
    obtain rfl := Option.some.inj (isLast.symm.trans onTheWay.current)
    exact (onTheWay.met parent).mp (next?_eq_none_iff.mp stops parent above)

end IsOnTheWay

theorem Ends.stops (ends : climb.Ends classes last) : last.next? classes = none := by
  induction ends with
  | here stops => exact stops
  | onward _ _ ih => exact ih

/-- The climb from a class leaves a lineage behind. -/
theorem Ends.isLineage (ends : (start name).Ends classes last) :
    classes.IsLineage name last.line :=
  (isOnTheWay_start.of_ends ends).isLineage ends.stops

/-- A chain is extended by a step of the climb, as long as the bound allows one. -/
theorem extendChain_succ (onTheWay : IsOnTheWay classes name climb) (bound : Nat) :
    classes.extendChain (bound + 1) climb.line climb.current =
      match climb.next? classes with
      | none => climb.line
      | some later => classes.extendChain bound later.line later.current := by
  rw [extendChain, next?]
  cases classes.superclass? climb.current with
  | none => rfl
  | some parent =>
      simp only [onTheWay.met]
      split <;> rfl

/-- A bound above the number of superclasses that were not met yet cuts nothing off. -/
theorem ends_extendChain {bound : Nat} (onTheWay : IsOnTheWay classes name climb)
    (ample : (climb.unmet classes).card < bound) :
    ∃ last, climb.Ends classes last ∧
      last.line = classes.extendChain bound climb.line climb.current := by
  induction bound generalizing climb with
  | zero => exact absurd ample (Nat.not_lt_zero _)
  | succ bound ih =>
      rw [extendChain_succ onTheWay]
      cases step : climb.next? classes with
      | none => exact ⟨climb, .here step, rfl⟩
      | some later =>
          -- the bound and the superclasses not met yet go down together
          have fewer := card_unmet_lt step
          obtain ⟨last, ends, left⟩ := ih (onTheWay.next step) (by omega)
          exact ⟨last, .onward step ends, left⟩

end Climb

/-- The chain of a class is its lineage. -/
theorem isLineage_chain (classes : ClassTable) (name : String) :
    classes.IsLineage name (classes.chain name) := by
  have ample : ((Climb.start name).unmet classes).card < classes.length + 1 :=
    Nat.lt_succ_of_le ((Finset.card_le_card Finset.sdiff_subset).trans card_recorded_le)
  obtain ⟨last, ends, left⟩ := Climb.ends_extendChain Climb.isOnTheWay_start ample
  have passed : last.line = classes.chain name := left
  exact passed ▸ ends.isLineage

/-- A class whose superclass is in a ring of two. -/
example : chain [("A", { superclass := some "B" }), ("B", { superclass := some "C" }),
    ("C", { superclass := some "B" })] "A" = ["A", "B", "C"] := by
  decide

/-- The chain is the only lineage of the class. -/
theorem isLineage_iff : classes.IsLineage name line ↔ line = classes.chain name :=
  ⟨fun lineage => lineage.unique (isLineage_chain classes name),
    fun same => same ▸ isLineage_chain classes name⟩

/-- Whenever the climb from a class ends, it has passed the chain. -/
theorem Climb.Ends.line_eq {last : Climb} (ends : (Climb.start name).Ends classes last) :
    last.line = classes.chain name :=
  isLineage_iff.mp ends.isLineage

end JavaStructure.ClassTable
