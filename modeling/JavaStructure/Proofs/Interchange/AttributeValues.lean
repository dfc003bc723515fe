/-
# Values of attributes

What may stand between the quotes of an attribute: no angle bracket that opens a tag, no quote,
and no ampersand but the first of a reference. Escaped text may always stand there. Of a name
only the angle brackets are replaced, so it may stand there if nothing else is in its way.
-/

import Mathlib.Data.List.Infix
import JavaStructure.Proofs.Interchange.StatementLines

namespace JavaStructure.Text

variable {text rest reference : List Char} {c : Char}

/-- The predefined references. -/
def references : List (List Char) :=
  ["&lt;".toList, "&gt;".toList, "&amp;".toList, "&apos;".toList, "&quot;".toList]

/-- Every ampersand of a text begins a reference. -/
def RefersOnly (text : List Char) : Prop :=
  ∀ rest ∈ text.tails, rest.head? = some '&' → ∃ reference ∈ references, reference <+: rest

instance (text : List Char) : Decidable (RefersOnly text) :=
  List.decidableBAll _ text.tails

/-- A text that may stand as the value of an attribute. -/
structure IsValue (text : List Char) : Prop where
  noTag : '<' ∉ text
  noQuote : '"' ∉ text
  refersOnly : RefersOnly text

theorem isValue_iff : IsValue text ↔ '<' ∉ text ∧ '"' ∉ text ∧ RefersOnly text :=
  ⟨fun value => ⟨value.noTag, value.noQuote, value.refersOnly⟩,
    fun ⟨noTag, noQuote, refersOnly⟩ => ⟨noTag, noQuote, refersOnly⟩⟩

instance (text : List Char) : Decidable (IsValue text) :=
  decidable_of_iff _ isValue_iff.symm

/-- A text without the three marks that have a meaning in a value. -/
def IsUnmarked (text : String) : Prop :=
  ∀ c ∈ text.toList, c ≠ '<' ∧ c ≠ '"' ∧ c ≠ '&'

instance (text : String) : Decidable (IsUnmarked text) :=
  List.decidableBAll _ text.toList

theorem refersOnly_cons :
    RefersOnly (c :: rest) ↔
      (c = '&' → ∃ reference ∈ references, reference <+: c :: rest) ∧ RefersOnly rest := by
  simp [RefersOnly]

theorem refersOnly_of_not_mem (plain : '&' ∉ text) : RefersOnly text := by
  intro rest inside first
  have suffix := (List.mem_tails _ _).mp inside
  exact absurd (suffix.subset (List.mem_of_mem_head? first)) plain

theorem IsUnmarked.isValue {text : String} (unmarked : IsUnmarked text) : IsValue text.toList where
  noTag inside := (unmarked _ inside).1 rfl
  noQuote inside := (unmarked _ inside).2.1 rfl
  refersOnly := refersOnly_of_not_mem fun inside => (unmarked _ inside).2.2 rfl

/-- A reference begins with its only ampersand, and no angle bracket follows. -/
theorem exists_of_mem_references (known : reference ∈ references) :
    ∃ name, reference = '&' :: name ∧ ∀ c ∈ name, c ≠ '<' ∧ c ≠ '>' ∧ c ≠ '&' := by
  have all : ∀ reference ∈ references, reference = '&' :: reference.tail ∧
      ∀ c ∈ reference.tail, c ≠ '<' ∧ c ≠ '>' ∧ c ≠ '&' := by simp [references]
  exact ⟨_, all reference known⟩

/-- A reference may stand in front of a text. -/
theorem refersOnly_reference (known : reference ∈ references) :
    RefersOnly (reference ++ rest) ↔ RefersOnly rest := by
  obtain ⟨name, rfl, plain⟩ := exists_of_mem_references known
  have whole : ∃ reference ∈ references, reference <+: '&' :: (name ++ rest) :=
    ⟨_, known, List.prefix_append _ _⟩
  rw [List.cons_append, refersOnly_cons]
  refine (and_iff_right fun _ => whole).trans ?_
  clear whole known
  induction name with
  | nil => rfl
  | cons c name ih =>
      obtain ⟨⟨-, -, first⟩, plain⟩ := List.forall_mem_cons.mp plain
      rw [List.cons_append, refersOnly_cons, ih plain]
      exact and_iff_right fun same => absurd same first

/-- A character is written as a reference, or as itself and is none of the three marks. -/
theorem entityReference_mem_or (c : Char) :
    entityReference c ∈ references ∨
      entityReference c = [c] ∧ c ≠ '<' ∧ c ≠ '"' ∧ c ≠ '&' := by
  by_cases marked : c ∈ ['>', '<', '&', '\'', '"']
  · left
    simp only [List.mem_cons, List.not_mem_nil, or_false] at marked
    rcases marked with rfl | rfl | rfl | rfl | rfl <;> decide
  · have own := ((entityReference_cases c).resolve_left marked).2
    simp only [List.mem_cons, List.not_mem_nil, or_false, not_or] at marked
    exact .inr ⟨own, marked.2.1, marked.2.2.2.2, marked.2.2.1⟩

theorem refersOnly_escape (text : List Char) : RefersOnly (text.flatMap entityReference) := by
  induction text with
  | nil => exact refersOnly_of_not_mem List.not_mem_nil
  | cons c rest ih =>
      rw [List.flatMap_cons]
      rcases entityReference_mem_or c with known | ⟨own, -, -, plain⟩
      · exact (refersOnly_reference known).mpr ih
      · rw [own, List.singleton_append, refersOnly_cons]
        exact ⟨fun same => absurd same plain, ih⟩

/-- Escaped text may stand as a value, whatever it holds. -/
theorem isValue_escape (text : List Char) : IsValue (text.flatMap entityReference) := by
  have absent : ∀ reference ∈ references, '<' ∉ reference ∧ '"' ∉ reference := by decide
  have each (c : Char) : '<' ∉ entityReference c ∧ '"' ∉ entityReference c := by
    rcases entityReference_mem_or c with known | ⟨own, noTag, noQuote, -⟩
    · exact absent _ known
    · rw [own, List.mem_singleton, List.mem_singleton]
      exact ⟨noTag.symm, noQuote.symm⟩
  refine ⟨fun inside => ?_, fun inside => ?_, refersOnly_escape text⟩
  · obtain ⟨c, -, found⟩ := List.mem_flatMap.mp inside
    exact (each c).1 found
  · obtain ⟨c, -, found⟩ := List.mem_flatMap.mp inside
    exact (each c).2 found

/-- A character of a name is an angle bracket, or is written as itself. -/
theorem angleReference_cases (c : Char) :
    (c = '<' ∨ c = '>') ∧ angleReference c ∈ references ∨
      c ≠ '<' ∧ c ≠ '>' ∧ angleReference c = [c] := by
  by_cases opens : c = '<'
  · subst opens
    exact .inl (by decide)
  · by_cases closes : c = '>'
    · subst closes
      exact .inl (by decide)
    · refine .inr ⟨opens, closes, ?_⟩
      unfold angleReference
      split <;> simp_all

theorem mem_escapeAngles {mark : Char} (other : ∀ reference ∈ references, mark ∉ reference) :
    mark ∈ text.flatMap angleReference ↔ mark ∈ text ∧ mark ≠ '<' ∧ mark ≠ '>' := by
  rw [List.mem_flatMap]
  constructor
  · rintro ⟨c, inside, found⟩
    rcases angleReference_cases c with ⟨-, known⟩ | ⟨noTag, noEnd, own⟩
    · exact absurd found (other _ known)
    · rw [own, List.mem_singleton] at found
      exact found ▸ ⟨inside, noTag, noEnd⟩
  · rintro ⟨inside, noTag, noEnd⟩
    refine ⟨mark, inside, ?_⟩
    rcases angleReference_cases mark with ⟨opens | closes, -⟩ | ⟨-, -, own⟩
    · exact absurd opens noTag
    · exact absurd closes noEnd
    · rw [own]
      exact List.mem_singleton_self mark

/-- A word without brackets and ampersands begins a text exactly if it begins the text with its
brackets replaced. -/
theorem prefix_escapeAngles {word : List Char}
    (plain : ∀ c ∈ word, c ≠ '<' ∧ c ≠ '>' ∧ c ≠ '&') :
    word <+: text.flatMap angleReference ↔ word <+: text := by
  induction word generalizing text with
  | nil => simp
  | cons c word ih =>
      obtain ⟨⟨noTag, noEnd, noReference⟩, plain⟩ := List.forall_mem_cons.mp plain
      cases text with
      | nil => rfl
      | cons d rest =>
          rw [List.flatMap_cons]
          rcases angleReference_cases d with ⟨angle, known⟩ | ⟨-, -, own⟩
          · obtain ⟨name, reference⟩ : ∃ name, angleReference d = '&' :: name := by
              rcases angle with rfl | rfl <;> exact ⟨_, rfl⟩
            rw [reference, List.cons_append, List.cons_prefix_cons, List.cons_prefix_cons]
            refine iff_of_false (fun same => noReference same.1) ?_
            rintro ⟨rfl, -⟩
            exact angle.elim noTag noEnd
          · rw [own, List.singleton_append, List.cons_prefix_cons, List.cons_prefix_cons,
              ih plain]

/-- Replacing angle brackets neither makes nor breaks a reference. -/
theorem refersOnly_escapeAngles : RefersOnly (text.flatMap angleReference) ↔ RefersOnly text := by
  induction text with
  | nil => rfl
  | cons c rest ih =>
      rw [List.flatMap_cons, refersOnly_cons]
      rcases angleReference_cases c with ⟨angle, known⟩ | ⟨-, -, own⟩
      · rw [refersOnly_reference known, ih]
        refine (and_iff_right fun same => ?_).symm
        subst same
        exact absurd angle (by decide)
      · rw [own, List.singleton_append, refersOnly_cons, ih]
        refine and_congr_left fun _ => imp_congr_right fun first => ?_
        subst first
        refine exists_congr fun reference => and_congr_right fun known => ?_
        obtain ⟨name, rfl, plain⟩ := exists_of_mem_references known
        rw [List.cons_prefix_cons, List.cons_prefix_cons, prefix_escapeAngles plain]

/-- A name with its angle brackets replaced may stand as a value exactly if it holds no quote
and its ampersands begin references. -/
theorem isValue_escapeAngles :
    IsValue (text.flatMap angleReference) ↔ '"' ∉ text ∧ RefersOnly text := by
  have noTag : '<' ∉ text.flatMap angleReference := fun inside =>
    ((mem_escapeAngles (by decide)).mp inside).2.1 rfl
  have quote : '"' ∈ text.flatMap angleReference ↔ '"' ∈ text :=
    (mem_escapeAngles (by decide)).trans (and_iff_left (by decide))
  rw [isValue_iff, quote, refersOnly_escapeAngles]
  exact and_iff_right noTag

end JavaStructure.Text
