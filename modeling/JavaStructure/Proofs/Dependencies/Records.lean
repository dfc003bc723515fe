/-
# Records as lines

A record is read back from its line as long as its fields hold none of the marks that
separate them and none of them is empty. No entry is empty in a record that is built
from what a source imports.
-/

import JavaStructure.Dependencies.Record
import JavaStructure.Proofs.Text.Lines

namespace JavaStructure.Dependencies

namespace Record

variable {record : Record}

/-- The fields behind the path. -/
def fields (record : Record) : List (List Char) :=
  Nat.toDigits 10 record.parseTime :: Nat.toDigits 10 record.checkTime ::
    record.imports.flatMap fun entry => [entry.directory.toList, entry.file.toList]

/-- The line of a record is its path, a bar, and each field with a semicolon behind it. -/
theorem toList_line (record : Record) :
    record.line.toList = record.path.toList ++ '|' :: record.fields.flatMap (· ++ [';']) := by
  have entries : (String.join (record.imports.map entryText)).toList =
      (record.imports.flatMap fun entry =>
        [entry.directory.toList, entry.file.toList]).flatMap (· ++ [';']) := by
    induction record.imports with
    | nil => rfl
    | cons entry rest ih =>
        rw [List.map_cons, String.join_cons, String.toList_append, ih]
        simp [entryText]
  simp [line, fields, Text.decimal, entries]

/-- No field holds a mark that ends it early, and none would be lost. -/
structure IsWritable (record : Record) : Prop where
  path : '|' ∉ record.path.toList
  parseTime : record.parseTime < Nat.pow 2 64
  checkTime : record.checkTime < Nat.pow 2 64
  directory : ∀ entry ∈ record.imports, entry.directory ≠ "" ∧ ';' ∉ entry.directory.toList
  file : ∀ entry ∈ record.imports, entry.file ≠ "" ∧ ';' ∉ entry.file.toList

theorem toDigits_ne_nil (number : Nat) : Nat.toDigits 10 number ≠ [] := by
  intro empty
  have read := Text.digitsValue?_toDigits number
  rw [empty] at read
  cases read

theorem IsWritable.fields_plain (writable : record.IsWritable) :
    ∀ field ∈ record.fields, field ≠ [] ∧ ';' ∉ field := by
  have numeral (number : Nat) :
      Nat.toDigits 10 number ≠ [] ∧ ';' ∉ Nat.toDigits 10 number :=
    ⟨toDigits_ne_nil number, fun inside =>
      absurd (Nat.isDigit_of_mem_toDigits (by decide) (by decide) inside) (by decide)⟩
  intro field inside
  rcases List.mem_cons.mp inside with rfl | inside
  · exact numeral _
  · rcases List.mem_cons.mp inside with rfl | inside
    · exact numeral _
    · obtain ⟨entry, found, either⟩ := List.mem_flatMap.mp inside
      rcases List.mem_cons.mp either with rfl | either
      · exact ⟨by simpa using (writable.directory entry found).1,
          (writable.directory entry found).2⟩
      · obtain rfl := List.mem_singleton.mp either
        exact ⟨by simpa using (writable.file entry found).1, (writable.file entry found).2⟩

theorem pairs_flatMap (imports : List ImportEntry) :
    pairs (imports.flatMap fun entry => [entry.directory.toList, entry.file.toList]) = imports := by
  induction imports with
  | nil => rfl
  | cons entry rest ih => simp [pairs, ih]

/-- A record is read back from its line. -/
theorem IsWritable.parse?_line (writable : record.IsWritable) :
    parse? record.line = some record := by
  have plain := writable.fields_plain
  have values : ((record.fields.flatMap (· ++ [';'])).splitOn ';').filter
      (fun value => !value.isEmpty) = record.fields := by
    have cut := Text.splitOn_flatMap (fun field inside => (plain field inside).2) []
    rw [List.append_nil, List.splitOn_nil] at cut
    rw [cut, List.filter_append, List.filter_eq_self.mpr]
    · simp
    · intro field inside
      simpa using (plain field inside).1
  have even (imports : List ImportEntry) : (imports.flatMap fun entry =>
      [entry.directory.toList, entry.file.toList]).length % 2 = 0 := by
    induction imports with
    | nil => rfl
    | cons entry rest ih =>
        rw [List.flatMap_cons, List.length_append]
        simp only [List.length_cons, List.length_nil]
        omega
  rw [parse?, toList_line, Text.cutFirst_append writable.path]
  dsimp only
  rw [values, fields]
  dsimp only
  rw [if_pos (even record.imports), Text.word64?_toDigits writable.parseTime,
    Text.word64?_toDigits writable.checkTime, pairs_flatMap, String.ofList_toList]

/-- The key of a line that was written for a record is the path of the record. -/
theorem key?_line (unmarked : '|' ∉ record.path.toList) : key? record.line = some record.path := by
  rw [key?, toList_line, Text.cutFirst_append unmarked]
  simp

/-- A record without line feeds is one line. -/
theorem line_unbroken (path : '\n' ∉ record.path.toList)
    (entries : ∀ entry ∈ record.imports,
      '\n' ∉ entry.directory.toList ∧ '\n' ∉ entry.file.toList) :
    '\n' ∉ record.line.toList := by
  have numeral (number : Nat) : '\n' ∉ Nat.toDigits 10 number := fun inside =>
    absurd (Nat.isDigit_of_mem_toDigits (by decide) (by decide) inside) (by decide)
  rw [toList_line, List.mem_append, not_or]
  refine ⟨path, ?_⟩
  rw [List.mem_cons, not_or]
  refine ⟨by decide, ?_⟩
  simp only [fields, List.mem_flatMap, List.mem_cons, List.mem_append, not_exists, not_and, not_or]
  rintro field (rfl | rfl | ⟨entry, inside, rfl | rfl | none⟩)
  · exact ⟨numeral _, by decide, List.not_mem_nil⟩
  · exact ⟨numeral _, by decide, List.not_mem_nil⟩
  · exact ⟨(entries entry inside).1, by decide, List.not_mem_nil⟩
  · exact ⟨(entries entry inside).2, by decide, List.not_mem_nil⟩
  · cases none

/-- The line of a record ends with a semicolon. -/
theorem getLast?_line (record : Record) : record.line.toList.getLast? = some ';' := by
  have ending (first : List Char) (rest : List (List Char)) :
      ((first :: rest).flatMap (· ++ [';'])).getLast? = some ';' := by
    induction rest generalizing first with
    | nil => simp
    | cons second rest ih => rw [List.flatMap_cons, List.getLast?_append, ih second, Option.some_or]
  rw [toList_line, List.getLast?_append, List.getLast?_cons, fields, ending]
  rfl

variable {isDirectory : String → Bool} {path root : String} {imports : List String} {now : Nat}

theorem withSeparator_ne_empty (root : String) : withSeparator root ≠ "" := by
  rw [withSeparator]
  split
  · next last =>
      rintro rfl
      simp at last
  · next last =>
      rintro rfl
      simp at last
  · simp

theorem entryFor_ne_empty (target : String × String) (named : target.1 ≠ "") :
    (entryFor isDirectory root target).directory ≠ "" ∧
      (entryFor isDirectory root target).file ≠ "" := by
  rw [entryFor]
  dsimp only
  constructor
  · split
    · simp [withSeparator_ne_empty]
    · exact named
  · simp

theorem importTarget?_ne_empty {declaration : String} {target : String × String}
    (found : importTarget? declaration = some target) : target.1 ≠ "" := by
  rw [importTarget?] at found
  obtain ⟨⟨directory, leaf⟩, -, rfl⟩ := Option.map_eq_some_iff.mp found
  simp

/-- A record is only built for a source that imports something. -/
theorem ofImports?_eq_none_iff :
    ofImports? isDirectory path imports root now = none ↔ imports = [] := by
  rw [ofImports?]
  cases imports <;> simp

/-- What a built record holds. Its entries have no empty parts. -/
theorem ofImports?_eq_some (built : ofImports? isDirectory path imports root now = some record) :
    record.path = path ∧ record.parseTime = now ∧ record.checkTime = now ∧
      ∀ entry ∈ record.imports, entry.directory ≠ "" ∧ entry.file ≠ "" := by
  rw [ofImports?] at built
  split at built
  · cases built
  · obtain rfl := Option.some.inj built
    refine ⟨rfl, rfl, rfl, fun entry inside => ?_⟩
    obtain ⟨target, found, rfl⟩ := List.mem_map.mp inside
    obtain ⟨declaration, -, target?⟩ := List.mem_filterMap.mp found
    exact entryFor_ne_empty target (importTarget?_ne_empty target?)

end Record

end JavaStructure.Dependencies
