/-
# Which records are read back

A line is only ever read as a record that can be written: its path holds no bar, its times
fit their words, and no part of an entry is empty or holds a semicolon. So the records that
are read back from the line written for them are exactly these, and whatever was read once
is read again from the line that is written for it.
-/

import JavaStructure.Proofs.Dependencies.Records

namespace JavaStructure.Dependencies

namespace Record

variable {record : Record} {line : String}

theorem mem_pairs {values : List (List Char)} {entry : ImportEntry}
    (inside : entry ∈ pairs values) :
    entry.directory.toList ∈ values ∧ entry.file.toList ∈ values := by
  fun_induction pairs values with
  | case1 directory file rest ih =>
      rcases List.mem_cons.mp inside with rfl | later
      · simp
      · obtain ⟨first, second⟩ := ih later
        exact ⟨.tail _ (.tail _ first), .tail _ (.tail _ second)⟩
  | case2 values _ => cases inside

/-- A value of a line is neither empty nor cut by a semicolon. -/
theorem value_plain {rest value : List Char}
    (inside : value ∈ (rest.splitOn ';').filter fun value => !value.isEmpty) :
    value ≠ [] ∧ ';' ∉ value := by
  obtain ⟨piece, nonempty⟩ := List.mem_filter.mp inside
  exact ⟨by simpa using nonempty, Text.not_mem_of_mem_splitOn piece⟩

/-- What a line that is read consists of, and what each part of it is read as. -/
theorem exists_of_parse? (read : parse? line = some record) :
    ∃ path rest parseText checkText values,
      Text.cutFirst '|' line.toList = some (path, rest) ∧
        ((rest.splitOn ';').filter fun value => !value.isEmpty) =
          parseText :: checkText :: values ∧
        record.path = .ofList path ∧
        Text.word64? (Text.trim parseText) = some record.parseTime ∧
        Text.word64? (Text.trim checkText) = some record.checkTime ∧
        record.imports = pairs values := by
  rw [parse?] at read
  split at read
  · cases read
  · next path rest cut =>
      dsimp only at read
      split at read
      · next parseText checkText imports values =>
          split at read
          · split at read
            · next parseTime checkTime parsed checked =>
                obtain rfl := Option.some.inj read
                exact ⟨path, rest, parseText, checkText, imports, cut, values, rfl, parsed,
                  checked, rfl⟩
            · cases read
          · cases read
      · cases read

/-- Only records that can be written are read. -/
theorem isWritable_of_parse? (read : parse? line = some record) : record.IsWritable := by
  obtain ⟨path, rest, parseText, checkText, values, cut, among, pathEq, parsed, checked,
    importsEq⟩ := exists_of_parse? read
  have plain (value : List Char) (inside : value ∈ values) : value ≠ [] ∧ ';' ∉ value := by
    apply value_plain
    rw [among]
    exact .tail _ (.tail _ inside)
  refine ⟨?_, Text.lt_of_word64? parsed, Text.lt_of_word64? checked, ?_, ?_⟩
  · rw [pathEq, String.toList_ofList]
    exact Text.not_mem_of_cutFirst cut
  · intro entry inside
    rw [importsEq] at inside
    simpa using plain _ (mem_pairs inside).1
  · intro entry inside
    rw [importsEq] at inside
    simpa using plain _ (mem_pairs inside).2

/-- The records that are read back from their line are those that can be written. -/
theorem parse?_line_eq_some_iff : parse? record.line = some record ↔ record.IsWritable :=
  ⟨isWritable_of_parse?, IsWritable.parse?_line⟩

/-- A record whose times fit their words is read back from its line exactly if its path holds
no bar and no part of its entries is empty or holds a semicolon. What was read once is read
again, and the key of a written line is the path, as long as that holds no bar. -/
theorem line_roundTrip :
    (∀ record : Record, record.parseTime < Nat.pow 2 64 → record.checkTime < Nat.pow 2 64 →
      (parse? record.line = some record ↔
        '|' ∉ record.path.toList ∧ ∀ entry ∈ record.imports,
          (entry.directory ≠ "" ∧ ';' ∉ entry.directory.toList) ∧
            entry.file ≠ "" ∧ ';' ∉ entry.file.toList)) ∧
      (∀ line record, parse? line = some record → parse? record.line = some record) ∧
      ∀ record : Record, '|' ∉ record.path.toList → key? record.line = some record.path := by
  refine ⟨fun record parseTime checkTime => ?_, fun line record read => ?_,
    fun record unmarked => key?_line unmarked⟩
  · rw [parse?_line_eq_some_iff]
    constructor
    · intro writable
      exact ⟨writable.path,
        fun entry inside => ⟨writable.directory entry inside, writable.file entry inside⟩⟩
    · rintro ⟨path, entries⟩
      exact ⟨path, parseTime, checkTime, fun entry inside => (entries entry inside).1,
        fun entry inside => (entries entry inside).2⟩
  · exact (isWritable_of_parse? read).parse?_line

/-- A record with the largest time and with a bar and blanks in an entry. -/
def oddRecord : Record :=
  { path := "/src/Ünit.java"
    parseTime := 18446744073709551615
    checkTime := 0
    imports := [⟨"a|b/", " C.java"⟩, ⟨"java/util/", "List.java"⟩] }

/-- A record whose second entry has no directory, so that its file would be taken for one. -/
def shiftedRecord : Record :=
  { oddRecord with imports := [⟨"", "C.java"⟩, ⟨"java/util/", "List.java;"⟩] }

theorem oddRecord_roundTrip :
    parse? oddRecord.line = some oddRecord ∧
      parse? shiftedRecord.line ≠ some shiftedRecord ∧
      parse? (Record.line ⟨"/B.java", 7, 5, []⟩) = some ⟨"/B.java", 7, 5, []⟩ ∧
      key? oddRecord.line = some "/src/Ünit.java" := by
  obtain ⟨exact, again, key⟩ := line_roundTrip
  refine ⟨(exact oddRecord (by decide) (by decide)).mpr (by decide), ?_,
    again "/B.java|+7; 5 ;;" _ (by decide), key oddRecord (by decide)⟩
  intro read
  have entries := ((exact shiftedRecord (by decide) (by decide)).mp read).2
  exact (entries ⟨"", "C.java"⟩ (by decide)).1.1 rfl

end Record

end JavaStructure.Dependencies
