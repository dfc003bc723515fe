/-
# What documents write into values

The texts of a document and the values they are written as. Conditions and names in statements
are escaped and may hold anything. Of the names of types and operations only the angle brackets
are replaced, and the path, the attributes and the parameters are written as they stand, so it is
for these texts to hold no marks.
-/

import JavaStructure.Proofs.Interchange.Markup
import JavaStructure.Proofs.Interchange.References

namespace JavaStructure

namespace Markup

open Text (IsUnmarked)

variable {text : String}

/-- A text of characters that XML allows. -/
def IsAllowed (text : String) : Prop :=
  ∀ c ∈ text.toList, isAllowed c = true

instance (text : String) : Decidable (IsAllowed text) :=
  List.decidableBAll _ text.toList

/-- Text without marks is read as it stands. -/
theorem value?_unmarked (unmarked : IsUnmarked text) (allowed : IsAllowed text) :
    value? text = some (spoken text) := by
  have writes : Writes (fun c => [c]) text.toList := fun c inside =>
    ⟨allowed c inside, .inr ⟨rfl, unmarked c inside⟩⟩
  have read := value?_written writes
  rwa [List.flatMap_singleton', String.ofList_toList] at read

/-- A name without quotes and ampersands is read from its escaped form. -/
theorem value?_escapeName (noQuote : '"' ∉ text.toList) (noReference : '&' ∉ text.toList)
    (allowed : IsAllowed text) : value? (Text.escapeName text) = some (spoken text) := by
  refine value?_written fun c inside => ⟨allowed c inside, ?_⟩
  rcases Text.angleReference_cases c with ⟨rfl | rfl, -⟩ | ⟨noTag, -, own⟩
  · exact .inl rfl
  · exact .inl rfl
  · exact .inr ⟨own, noTag, fun same => noQuote (same ▸ inside),
      fun same => noReference (same ▸ inside)⟩

/-- Free text is read from its escaped form, whatever it holds. -/
theorem value?_escapeText (allowed : IsAllowed text) :
    value? (Text.escapeText text) = some (spoken text) :=
  value?_written fun c inside => ⟨allowed c inside, .inl rfl⟩

theorem normalized_cons {c : Char} (other : c ≠ '\r') (rest : List Char) :
    normalized (c :: rest) = (if isSpace c then ' ' else c) :: normalized rest := by
  rw [normalized]
  exact fun _ same => absurd same other

/-- Text without tabs and line breaks is handed on as it is. -/
theorem spoken_eq_self (unbroken : ∀ c ∈ text.toList, isSpace c = true → c = ' ') :
    spoken text = text := by
  have same (letters : List Char) (unbroken : ∀ c ∈ letters, isSpace c = true → c = ' ') :
      normalized letters = letters := by
    induction letters with
    | nil => rfl
    | cons c rest ih =>
        obtain ⟨first, unbroken⟩ := List.forall_mem_cons.mp unbroken
        have other : c ≠ '\r' := by
          rintro rfl
          exact absurd (first rfl) (by decide)
        rw [normalized_cons other, ih unbroken]
        split
        · next space => rw [first space]
        · rfl
  rw [spoken, Text.mapChars, same _ unbroken, String.ofList_toList]

end Markup

namespace Interchange

open Markup (value? spoken IsAllowed)
open Text (IsValue IsUnmarked RefersOnly)

variable {text : String} {type : TypeId}

theorem unmarked_of_isDigit {c : Char} (digit : c.isDigit = true) :
    c ≠ '<' ∧ c ≠ '"' ∧ c ≠ '&' := by
  refine ⟨?_, ?_, ?_⟩ <;> rintro rfl <;> cases digit

theorem isAllowed_of_isDigit {c : Char} (digit : c.isDigit = true) :
    Markup.isAllowed c = true := by
  simp only [Char.isDigit, Bool.and_eq_true, decide_eq_true_eq] at digit
  have low : 48 ≤ c.toNat := UInt32.le_iff_toNat_le.mp digit.1
  have high : c.toNat ≤ 57 := UInt32.le_iff_toNat_le.mp digit.2
  simp only [Markup.isAllowed, Bool.or_eq_true, Bool.and_eq_true, decide_eq_true_eq]
  omega

theorem isDigit_of_mem_decimal {number : Nat} {c : Char}
    (inside : c ∈ (Text.decimal number).toList) : c.isDigit = true := by
  rw [Text.decimal, String.toList_ofList] at inside
  exact Nat.isDigit_of_mem_toDigits (by decide) (by decide) inside

theorem isUnmarked_decimal (number : Nat) : IsUnmarked (Text.decimal number) :=
  fun _ inside => unmarked_of_isDigit (isDigit_of_mem_decimal inside)

/-- Numbers are read as they are written. -/
theorem value?_decimal (number : Nat) :
    value? (Text.decimal number) = some (Text.decimal number) := by
  have allowed : IsAllowed (Text.decimal number) := fun _ inside =>
    isAllowed_of_isDigit (isDigit_of_mem_decimal inside)
  have unbroken (c : Char) (inside : c ∈ (Text.decimal number).toList)
      (space : Markup.isSpace c = true) : c = ' ' := by
    have digit := isDigit_of_mem_decimal inside
    simp only [Markup.isSpace, Bool.or_eq_true, decide_eq_true_eq] at space
    rcases space with ((rfl | rfl) | rfl) | rfl <;> cases digit
  rw [Markup.value?_unmarked (isUnmarked_decimal number) allowed,
    Markup.spoken_eq_self unbroken]

/-- The item for a statement before it is escaped. -/
def plainStatement : Statement → String
  | .openScope condition => "\x7b" ++ condition
  | .closeScope => "\x7d"
  | .call name target => "c=" ++ name ++ "@" ++ idText target
  | .variableUse name owner type =>
      "v=" ++ name ++ "@" ++ idText owner ++ "@" ++ idText type ++ "@t"

/-- The line for the statements of a method before it is escaped. -/
def plainStatements (statements : List Statement) : String :=
  "#".intercalate (statements.map plainStatement)

theorem escape_idText (type : TypeId) :
    (idText type).toList.flatMap Text.entityReference = (idText type).toList := by
  have plain (c : Char) (inside : c ∈ (idText type).toList) : Text.entityReference c = [c] := by
    refine ((Text.entityReference_cases c).resolve_left fun marked => ?_).2
    revert inside
    simp only [List.mem_cons, List.not_mem_nil, or_false] at marked
    rcases marked with rfl | rfl | rfl | rfl | rfl <;> exact not_mem_idText (by decide) type
  rw [List.flatMap_congr plain, List.flatMap_singleton']

theorem toList_escapeText (text : String) :
    (Text.escapeText text).toList = text.toList.flatMap Text.entityReference := by
  rw [Text.escapeText, Text.mapChars, String.toList_ofList]

/-- Escaping the texts of a statement escapes its item. -/
theorem toList_encodeStatement (statement : Statement) :
    (encodeStatement statement).toList =
      (plainStatement statement).toList.flatMap Text.entityReference := by
  have mark : ∀ c ∈ ['\x7b', '\x7d', 'c', 'v', '=', '@', 't'], Text.entityReference c = [c] := by
    simp only [List.forall_mem_cons, List.not_mem_nil, false_implies, implies_true, and_true]
    decide
  cases statement <;>
    simp [encodeStatement, plainStatement, toList_escapeText, escape_idText, mark]

/-- Escaping the texts of the statements escapes their line. -/
theorem encodeStatements_eq (statements : List Statement) :
    encodeStatements statements = Text.escapeText (plainStatements statements) := by
  rw [String.ext_iff, toList_escapeText, toList_encodeStatements, plainStatements,
    String.toList_intercalate, List.map_map]
  induction statements with
  | nil => rfl
  | cons first rest ih =>
      cases rest with
      | nil => simpa [List.intercalate] using toList_encodeStatement first
      | cons next rest =>
          have mark : Text.entityReference '#' = ['#'] := rfl
          simpa [List.intercalate, toList_encodeStatement first, mark] using ih

/-- Every list of statements may stand as a value. -/
theorem isValue_encodeStatements (statements : List Statement) :
    IsValue (encodeStatements statements).toList := by
  rw [encodeStatements_eq, toList_escapeText]
  exact Text.isValue_escape _

/-- What holds of the characters of items and of the mark between them holds throughout. -/
theorem forall_mem_intercalate {P : Char → Prop} {mark : String} (marks : ∀ c ∈ mark.toList, P c)
    {items : List String} (each : ∀ item ∈ items, ∀ c ∈ item.toList, P c) :
    ∀ c ∈ (mark.intercalate items).toList, P c := by
  rw [String.toList_intercalate]
  induction items with
  | nil => simp
  | cons first rest ih =>
      obtain ⟨whole, each⟩ := List.forall_mem_cons.mp each
      cases rest with
      | nil => simpa [List.intercalate] using whole
      | cons next rest =>
          intro c inside
          have cut : c ∈ first.toList ++ (mark.toList ++
              mark.toList.intercalate ((next :: rest).map String.toList)) := by
            simpa [List.intercalate] using inside
          rcases List.mem_append.mp cut with early | later
          · exact whole c early
          · rcases List.mem_append.mp later with between | later
            · exact marks c between
            · exact ih each c later

/-- What holds of digits and signs and of the characters of names holds throughout the line of
some parameters. -/
theorem forall_mem_encodeParameters {P : Char → Prop} (digits : ∀ c, c.isDigit = true → P c)
    (signs : ∀ c ∈ ['#', '@', 'f'], P c) {parameters : List Slot}
    (names : ∀ slot ∈ parameters, ∀ c ∈ slot.name.toList, P c) :
    ∀ c ∈ (encodeParameters parameters).toList, P c := by
  refine forall_mem_intercalate (fun c inside => signs c ?_) fun item inside => ?_
  · rw [List.mem_singleton.mp inside]
    decide
  · obtain ⟨slot, listed, rfl⟩ := List.mem_map.mp inside
    intro c inside
    have parts : c ∈ slot.name.toList ∨ c ∈ (idText slot.type).toList ∨ c ∈ ['#', '@', 'f'] := by
      simp [encodeParameter] at inside
      simp
      tauto
    rcases parts with name | number | sign
    · exact names slot listed c name
    · exact digits c (isDigit_of_mem_decimal number)
    · exact signs c sign

/-- The same of the line of some statements. -/
theorem forall_mem_plainStatements {P : Char → Prop} (digits : ∀ c, c.isDigit = true → P c)
    (signs : ∀ c ∈ ['#', '@', '\x7b', '\x7d', 'c', 'v', '=', 't'], P c)
    {statements : List Statement}
    (texts : ∀ statement ∈ statements, ∀ c ∈ statement.text.toList, P c) :
    ∀ c ∈ (plainStatements statements).toList, P c := by
  refine forall_mem_intercalate (fun c inside => signs c ?_) fun item inside => ?_
  · rw [List.mem_singleton.mp inside]
    decide
  · obtain ⟨statement, listed, rfl⟩ := List.mem_map.mp inside
    intro c inside
    have parts : c ∈ statement.text.toList ∨ c.isDigit = true ∨
        c ∈ ['#', '@', '\x7b', '\x7d', 'c', 'v', '=', 't'] := by
      have number (type : TypeId) (inside : c ∈ (idText type).toList) : c.isDigit = true :=
        isDigit_of_mem_decimal inside
      cases statement <;> simp [plainStatement, Statement.text] at inside ⊢ <;> grind
    rcases parts with text | digit | sign
    · exact texts statement listed c text
    · exact digits c digit
    · exact signs c sign

namespace Element

/-- The names of types and operations in an element. -/
def names : Element → List String
  | .mentioned _ name => [name]
  | .declared _ name _ operations => name :: operations.map (·.name)
  | .generalization _ _ _ => []

/-- The attributes and parameters in an element. -/
def slots : Element → List Slot
  | .declared _ _ attributes operations => attributes ++ operations.flatMap (·.parameters)
  | .mentioned _ _ | .generalization _ _ _ => []

/-- The statements in an element. -/
def statements : Element → List Statement
  | .declared _ _ _ operations => operations.flatMap (·.statements)
  | .mentioned _ _ | .generalization _ _ _ => []

end Element

namespace Document

/-- The names of the types and operations of a document. -/
def names (document : Document) : List String :=
  document.elements.flatMap Element.names

/-- The attributes and parameters of a document. -/
def slots (document : Document) : List Slot :=
  document.elements.flatMap Element.slots

/-- The statements of a document. -/
def statements (document : Document) : List Statement :=
  document.elements.flatMap Element.statements

end Document

/-- The values in some tags. -/
def valuesIn (tags : List Tag) : List String :=
  tags.flatMap fun tag => tag.attributes.map Prod.snd

theorem valuesIn_nil : valuesIn [] = [] := rfl

theorem valuesIn_cons (tag : Tag) (tags : List Tag) :
    valuesIn (tag :: tags) = tag.attributes.map Prod.snd ++ valuesIn tags := rfl

theorem valuesIn_append (front back : List Tag) :
    valuesIn (front ++ back) = valuesIn front ++ valuesIn back :=
  List.flatMap_append

/-- All texts of a list may stand as values. -/
def AreValues (values : List String) : Prop :=
  ∀ value ∈ values, IsValue value.toList

theorem areValues_nil : AreValues [] := by
  rintro value ⟨⟩

theorem areValues_cons {value : String} {values : List String} :
    AreValues (value :: values) ↔ IsValue value.toList ∧ AreValues values :=
  List.forall_mem_cons

theorem areValues_append {front back : List String} :
    AreValues (front ++ back) ↔ AreValues front ∧ AreValues back :=
  List.forall_mem_append

theorem areValues_flatMap {α : Type} {values : α → List String} {items : List α} :
    AreValues (items.flatMap values) ↔ ∀ item ∈ items, AreValues (values item) :=
  List.forall_mem_flatMap

theorem isValue_decimal (number : Nat) : IsValue (Text.decimal number).toList :=
  (isUnmarked_decimal number).isValue

theorem isUnmarked_encodeParameters {parameters : List Slot}
    (unmarked : ∀ slot ∈ parameters, IsUnmarked slot.name) :
    IsUnmarked (encodeParameters parameters) :=
  forall_mem_encodeParameters (fun _ digit => unmarked_of_isDigit digit) (by simp) unmarked

theorem areValues_attribute {slot : Slot} (unmarked : IsUnmarked slot.name) :
    AreValues (valuesIn [attributeTag slot]) := by
  simp [valuesIn_cons, valuesIn_nil, attributeTag, areValues_cons, areValues_nil, idText,
    unmarked.isValue, isValue_decimal]

/-- Only the name of an operation stands in the way of its values. -/
theorem areValues_operation {operation : Operation}
    (unmarked : ∀ slot ∈ operation.parameters, IsUnmarked slot.name) :
    AreValues (valuesIn (operationTags operation)) ↔
      IsValue (Text.escapeName operation.name).toList := by
  have constants : IsValue ['f'] ∧ IsValue ['1'] := by decide
  have parameters := (isUnmarked_encodeParameters unmarked).isValue
  rw [operationTags]
  split <;>
    simp [valuesIn_cons, valuesIn_nil, areValues_cons, areValues_nil, constants, parameters,
      isValue_encodeStatements]

/-- Only the names in an element stand in the way of its values. -/
theorem areValues_element {element : Element}
    (unmarked : ∀ slot ∈ element.slots, IsUnmarked slot.name) :
    AreValues (valuesIn element.tags) ↔
      ∀ name ∈ element.names, IsValue (Text.escapeName name).toList := by
  have constant : IsValue ['1'] := by decide
  cases element with
  | mentioned id name =>
      simp [Element.tags, Element.names, valuesIn_cons, valuesIn_nil, areValues_cons,
        areValues_nil, isValue_decimal]
  | generalization id child parent =>
      simp [Element.tags, Element.names, valuesIn_cons, valuesIn_nil, areValues_cons,
        areValues_nil, isValue_decimal]
  | declared id name slots operations =>
      rw [Element.slots, List.forall_mem_append] at unmarked
      obtain ⟨attributes, parameters⟩ := unmarked
      have inner : AreValues (valuesIn (slots.map attributeTag)) := by
        rw [valuesIn, List.flatMap_map, areValues_flatMap]
        intro slot listed
        have own := areValues_attribute (attributes slot listed)
        rwa [valuesIn, List.flatMap_singleton] at own
      have operational : AreValues (valuesIn (operations.flatMap operationTags)) ↔
          ∀ operation ∈ operations, IsValue (Text.escapeName operation.name).toList := by
        rw [valuesIn, List.flatMap_assoc, areValues_flatMap]
        refine forall₂_congr fun operation listed => areValues_operation fun slot inside => ?_
        exact parameters slot (List.mem_flatMap.mpr ⟨operation, listed, inside⟩)
      rw [Element.tags, valuesIn_append, valuesIn_append, valuesIn_append, areValues_append,
        areValues_append, areValues_append, operational]
      simp [Element.names, valuesIn_cons, valuesIn_nil, areValues_cons, areValues_nil, inner,
        isValue_decimal, constant]

/-- Where path, attributes and parameters hold no marks, only the names of types and operations
stand in the way of the values of a document. -/
theorem areValues_document {document : Document} (path : IsUnmarked document.modulePath)
    (unmarked : ∀ slot ∈ document.slots, IsUnmarked slot.name) :
    AreValues (valuesIn document.tags) ↔
      ∀ name ∈ document.names, '"' ∉ name.toList ∧ RefersOnly name.toList := by
  have fixed : IsValue "1.2".toList ∧ IsValue "http://schema.omg.org/spec/UML/1.3".toList ∧
      IsValue "1".toList := by decide
  have inner : AreValues (valuesIn (document.elements.flatMap Element.tags)) ↔
      ∀ name ∈ document.names, IsValue (Text.escapeName name).toList := by
    rw [valuesIn, List.flatMap_assoc, areValues_flatMap, Document.names, List.forall_mem_flatMap]
    refine forall₂_congr fun element listed => areValues_element fun slot inside => ?_
    exact unmarked slot (List.mem_flatMap.mpr ⟨element, listed, inside⟩)
  have escaped (name : String) : IsValue (Text.escapeName name).toList ↔
      '"' ∉ name.toList ∧ RefersOnly name.toList := by
    rw [Text.escapeName, Text.mapChars, String.toList_ofList, Text.isValue_escapeAngles]
  rw [Document.tags, valuesIn_append, valuesIn_append, areValues_append, areValues_append, inner]
  simp only [valuesIn_cons, valuesIn_nil, Document.moduleTag, List.map_cons, List.map_nil,
    List.nil_append, List.append_nil, List.cons_append, areValues_cons, areValues_nil, fixed,
    path.isValue, isValue_decimal, escaped, true_and, and_true]

end Interchange

end JavaStructure
