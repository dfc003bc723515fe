/-
# Merges one after another

Merges of one cache that nothing interferes with, one after another. A cache that was
missing before holds one line for each source that was ever merged with imports, and it
is the line of the last such merge. In a cache with any other text a merge replaces the
first line about its source, and the other lines stay.
-/

import JavaStructure.Proofs.Dependencies.Alone

namespace JavaStructure

/-- A line without the carriage return at its end. -/
def Text.withoutReturn (line : String) : String :=
  .ofList (dropReturn line.toList)

theorem Text.withoutReturn_of_getLast {line : String} (ending : line.toList.getLast? ≠ some '\r') :
    withoutReturn line = line := by
  rw [withoutReturn, dropReturn_of_getLast ending, String.ofList_toList]

namespace Dependencies

open Store

namespace Record

/-- The records that no later record has the path of. -/
def latest : List Record → List Record
  | [] => []
  | record :: later =>
      if later.any fun other => other.path = record.path then latest later
      else record :: latest later

variable {records : List Record}

theorem latest_sublist (records : List Record) : (latest records).Sublist records := by
  induction records with
  | nil => exact List.Sublist.refl []
  | cons record later ih =>
      rw [latest]
      split
      · exact ih.cons record
      · exact ih.cons_cons record

/-- No two of the latest records have one path. -/
theorem latest_distinct (records : List Record) :
    (latest records).Pairwise fun first second => first.path ≠ second.path := by
  induction records with
  | nil => exact List.Pairwise.nil
  | cons record later ih =>
      rw [latest]
      split
      · exact ih
      · next last =>
          refine List.pairwise_cons.mpr ⟨fun other inside same => last ?_, ih⟩
          exact List.any_eq_true.mpr
            ⟨other, (latest_sublist later).subset inside, by simpa using same.symm⟩

/-- One more record takes the place of the one with its path. -/
theorem latest_concat (records : List Record) (record : Record) :
    latest (records ++ [record]) =
      (latest records).filter (fun other => other.path ≠ record.path) ++ [record] := by
  induction records with
  | nil => rfl
  | cons first later ih =>
      rw [List.cons_append, latest, latest, List.any_append]
      by_cases shadowed : later.any fun other => other.path = first.path
      · simp only [shadowed, Bool.true_or, if_true]
        exact ih
      · by_cases same : record.path = first.path
        · simp [shadowed, same, ih]
        · simp [shadowed, same, Ne.symm same, ih]

/-- For each path, the latest record is the last one of that path. -/
theorem filter_latest (records : List Record) (path : String) :
    (latest records).filter (fun record => record.path = path) =
      (records.filter fun record => record.path = path).getLast?.toList := by
  induction records using List.reverseRecOn with
  | nil => rfl
  | append_singleton front record ih =>
      rw [latest_concat, List.filter_append, List.filter_append, List.filter_filter]
      by_cases same : record.path = path
      · subst same
        simp
      · have kept (other : Record) : (decide (other.path = path) &&
            decide (other.path ≠ record.path)) = decide (other.path = path) := by
          by_cases sameToo : other.path = path
          · simp [sameToo, Ne.symm same]
          · simp [sameToo]
        simp only [kept, ih]
        simp [same]

/-- A record that can be told apart from others and read back: no bar stands in its path, no
semicolon in its entries, and a line feed in neither. -/
structure IsPlain (record : Record) : Prop where
  path : '|' ∉ record.path.toList ∧ '\n' ∉ record.path.toList
  directory : ∀ entry ∈ record.imports,
    ';' ∉ entry.directory.toList ∧ '\n' ∉ entry.directory.toList
  file : ∀ entry ∈ record.imports, ';' ∉ entry.file.toList ∧ '\n' ∉ entry.file.toList

instance (record : Record) : Decidable record.IsPlain :=
  decidable_of_iff
    (('|' ∉ record.path.toList ∧ '\n' ∉ record.path.toList) ∧
      (∀ entry ∈ record.imports, ';' ∉ entry.directory.toList ∧ '\n' ∉ entry.directory.toList) ∧
      ∀ entry ∈ record.imports, ';' ∉ entry.file.toList ∧ '\n' ∉ entry.file.toList)
    ⟨fun ⟨path, directory, file⟩ => ⟨path, directory, file⟩,
      fun plain => ⟨plain.path, plain.directory, plain.file⟩⟩

theorem IsPlain.line_unbroken {record : Record} (plain : record.IsPlain) :
    '\n' ∉ record.line.toList :=
  Record.line_unbroken plain.path.2 fun entry inside =>
    ⟨(plain.directory entry inside).2, (plain.file entry inside).2⟩

end Record

/-- Where no two entries have one key, taking away the first with a key takes away all. -/
theorem eraseP_eq_filter {α κ : Type} [DecidableEq κ] {key : α → κ} {list : List α}
    (distinct : list.Pairwise fun first second => key first ≠ key second) (taken : κ) :
    list.eraseP (fun entry => key entry = taken) = list.filter fun entry => key entry ≠ taken := by
  induction list with
  | nil => rfl
  | cons entry later ih =>
      obtain ⟨others, distinctLater⟩ := List.pairwise_cons.mp distinct
      by_cases same : key entry = taken
      · subst same
        have all : later.filter (fun other => key other ≠ key entry) = later :=
          List.filter_eq_self.mpr fun other inside => by simpa using (others other inside).symm
        rw [List.eraseP_cons_of_pos (by simp), List.filter_cons_of_neg (by simp), all]
      · rw [List.eraseP_cons_of_neg (by simpa using same),
          List.filter_cons_of_pos (by simpa using same), ih distinctLater]

namespace Cache

variable {lines : List String} {records : List Record} {record : Record}

/-- Lines that were written are read again, each without a carriage return at its end. -/
theorem linesOf_textOf (unbroken : ∀ line ∈ lines, '\n' ∉ line.toList) :
    linesOf (some (.text (textOf lines))) = lines.map Text.withoutReturn := by
  have chars : (textOf lines).toList = (lines.map String.toList).flatMap (· ++ ['\n']) := by
    induction lines with
    | nil => rfl
    | cons line rest ih =>
        rw [textOf_cons, String.toList_append, String.toList_append,
          ih (List.forall_mem_cons.mp unbroken).2]
        rfl
  calc linesOf (some (.text (textOf lines)))
    _ = (Text.lines ((lines.map String.toList).flatMap (· ++ ['\n']))).map String.ofList := by
      rw [linesOf, chars]
    _ = ((lines.map String.toList).map Text.dropReturn).map String.ofList := by
      rw [Text.lines_flatMap (by simpa using unbroken)]
    _ = lines.map Text.withoutReturn := by
      rw [List.map_map, List.map_map]
      rfl

theorem linesOf_unbroken (content : Option Content) :
    ∀ line ∈ linesOf content, '\n' ∉ line.toList := by
  rw [linesOf.eq_def]
  split
  · intro line inside
    obtain ⟨chars, found, rfl⟩ := List.mem_map.mp inside
    rw [String.toList_ofList]
    exact Text.not_mem_of_mem_lines found
  · exact fun _ inside => by cases inside

theorem withoutReturn_line (record : Record) : Text.withoutReturn record.line = record.line :=
  Text.withoutReturn_of_getLast (by rw [Record.getLast?_line]; decide)

/-- The lines of a cache with a line for each of the latest records. -/
theorem replaceLine_latest (marked : ∀ other ∈ records, '|' ∉ other.path.toList)
    (record : Record) :
    replaceLine ((Record.latest records).map Record.line) record =
      (Record.latest (records ++ [record])).map Record.line := by
  have keys : ∀ other ∈ Record.latest records, Record.key? other.line = some other.path :=
    fun other inside =>
      Record.key?_line (marked other ((Record.latest_sublist records).subset inside))
  have distinct : ((Record.latest records).map Record.line).Pairwise
      fun first second => Record.key? first ≠ Record.key? second := by
    rw [List.pairwise_map]
    refine (Record.latest_distinct records).imp_of_mem fun first second differ => ?_
    rwa [keys _ first, keys _ second, ne_eq, Option.some.injEq]
  have others : (Record.latest records).filter
      ((fun line => decide (Record.key? line ≠ some record.path)) ∘ Record.line) =
      (Record.latest records).filter fun other => other.path ≠ record.path :=
    List.filter_congr fun other inside => by simp [keys other inside]
  calc replaceLine ((Record.latest records).map Record.line) record
    _ = ((Record.latest records).filter fun other => other.path ≠ record.path).map
        Record.line ++ [record.line] := by
      rw [replaceLine, eraseP_eq_filter distinct, List.filter_map, others]
    _ = (Record.latest (records ++ [record])).map Record.line := by
      rw [Record.latest_concat, List.map_append, List.map_singleton]

end Cache

/-- What a cache holds that was missing before the records were merged into it. -/
def contentOf (records : List Record) : Option Content :=
  if records = [] then none
  else some (.text (Cache.textOf ((Record.latest records).map Record.line)))

/-- There is no cache, nor is there one once its directories are made. -/
structure Absent (cache : Path) (store : Store) : Prop where
  unread : store.readText cache = .error .missing
  empty : contentIn cache store = none

/-- A merge that tries for the lock, and whose record can be read back if it has one. -/
structure Merge.IsWritable (isDirectory : String → Bool) (merge : Merge) : Prop where
  patient : 0 < merge.policy.attempts
  timely : merge.now < Nat.pow 2 64
  plain : ∀ record, merge.record? isDirectory = some record → record.IsPlain

section Runs

variable {cache : Path} {limit : Nat} {store : Store} {merges : List Merge}
variable {isDirectory : String → Bool} {records : List Record}

/-- The lines of a cache that was missing before. -/
theorem linesOf_contentOf (plain : ∀ record ∈ records, record.IsPlain) :
    Cache.linesOf (contentOf records) = (Record.latest records).map Record.line := by
  rw [contentOf]
  split
  · next none =>
      rw [none]
      rfl
  · rw [Cache.linesOf_textOf, List.map_map]
    · exact List.map_congr_left fun record _ => Cache.withoutReturn_line record
    · intro line inside
      obtain ⟨record, found, rfl⟩ := List.mem_map.mp inside
      exact (plain record ((Record.latest_sublist records).subset found)).line_unbroken

/-- The records of the merges, in their order. -/
theorem foldl_effect (writable : ∀ merge ∈ merges, merge.IsWritable isDirectory) :
    merges.foldl (fun content merge => merge.effect isDirectory content) none =
      contentOf (merges.filterMap (Merge.record? isDirectory)) := by
  induction merges using List.reverseRecOn with
  | nil => rfl
  | append_singleton front merge ih =>
      have earlier : ∀ other ∈ front, other.IsWritable isDirectory :=
        fun other inside => writable other (List.mem_append_left _ inside)
      have plain : ∀ record ∈ front.filterMap (Merge.record? isDirectory), record.IsPlain := by
        intro record inside
        obtain ⟨other, found, built⟩ := List.mem_filterMap.mp inside
        exact (earlier other found).plain record built
      calc (front ++ [merge]).foldl (fun content merge => merge.effect isDirectory content) none
        _ = merge.effect isDirectory
            (contentOf (front.filterMap (Merge.record? isDirectory))) := by
          rw [List.foldl_append, ih earlier, List.foldl_cons, List.foldl_nil]
        _ = contentOf (front.filterMap (Merge.record? isDirectory) ++
            (merge.record? isDirectory).toList) := by
          rw [Merge.effect]
          cases built : merge.record? isDirectory with
          | none => simp
          | some record =>
              dsimp only
              rw [linesOf_contentOf plain,
                Cache.replaceLine_latest (fun other inside => (plain other inside).path.1)]
              simp [contentOf]
        _ = contentOf ((front ++ [merge]).filterMap (Merge.record? isDirectory)) := by
          rw [List.filterMap_append]
          cases built : merge.record? isDirectory <;> simp [built]

/-- Merges one after another succeed, and each adds its update to those before it. -/
theorem run_merges (patient : ∀ merge ∈ merges, 0 < merge.policy.attempts)
    (usable : Usable cache limit store) (room : store.fresh + 3 * merges.length ≤ limit) :
    ∃ after, (merges.mapM (Merge.program cache)).run store =
        (merges.map fun merge => .ok merge.outcome, after) ∧
      contentIn cache after = merges.foldl
        (fun content merge =>
          merge.effect (fun text => (opened cache store).isDirectory ⟨text⟩) content)
        (contentIn cache store) ∧
      (merges ≠ [] → Usable cache limit after ∧ opened cache after = after) := by
  induction merges generalizing store with
  | nil => exact ⟨store, rfl, rfl, fun some => absurd rfl some⟩
  | cons merge rest ih =>
      obtain ⟨first, others⟩ := List.forall_mem_cons.mp patient
      rw [List.length_cons] at room
      obtain ⟨middle, ran, rewrites⟩ := run_program merge first usable (by omega)
      obtain ⟨usableToo, unopened⟩ := usable_of_rewrites merge usable rewrites
      have spent := rewrites.spent
      rw [fresh_opened] at spent
      obtain ⟨after, ranRest, content, settles⟩ := ih others usableToo (by omega)
      rw [unopened] at content
      simp only [rewrites.same.isDirectory] at content
      have written : contentIn cache middle = merge.effect
          (fun text => (opened cache store).isDirectory ⟨text⟩) (contentIn cache store) := by
        rw [contentIn, unopened, rewrites.rewritten]
      refine ⟨after, ?_, ?_, fun _ => ?_⟩
      · rw [List.mapM_cons, Program.run_bind, ran, Program.run_bind, ranRest]
        rfl
      · rw [content, written, List.foldl_cons]
      · cases rest with
        | nil =>
            obtain rfl : middle = after := congrArg Prod.snd ranRest
            exact ⟨usableToo, unopened⟩
        | cons => exact settles (List.cons_ne_nil _ _)

/-- The records of a cache are read from its lines. -/
theorem load_succeeds (policy : RetryPolicy) {after : Store} {lines : List String}
    (reads : Attempt.Succeeds (Cache.readLines ⟨cache, policy⟩) store lines after) :
    Attempt.Succeeds (Cache.load ⟨cache, policy⟩) store (lines.filterMap Record.parse?) after :=
  .bind reads (.pure _ _)

/-- The latest records are read back from their lines. -/
theorem parse_latest (writable : ∀ record ∈ records, record.IsWritable) :
    ((Record.latest records).map Record.line).filterMap Record.parse? = Record.latest records := by
  rw [List.filterMap_map]
  have read : ∀ record ∈ Record.latest records,
      (Record.parse? ∘ Record.line) record = some record := fun record inside =>
    (writable record ((Record.latest_sublist records).subset inside)).parse?_line
  rw [List.filterMap_congr read, List.filterMap_some]

/-- The record of a merge can be read back. -/
theorem Merge.IsWritable.record {merge : Merge} (writable : merge.IsWritable isDirectory)
    {record : Record} (built : merge.record? isDirectory = some record) : record.IsWritable := by
  have plain := writable.plain record built
  obtain ⟨-, parseTime, checkTime, entries⟩ := Record.ofImports?_eq_some built
  refine ⟨plain.path.1, ?_, ?_, fun entry inside => ?_, fun entry inside => ?_⟩
  · rw [parseTime]
    exact writable.timely
  · rw [checkTime]
    exact writable.timely
  · exact ⟨(entries entry inside).1, (plain.directory entry inside).1⟩
  · exact ⟨(entries entry inside).2, (plain.file entry inside).1⟩

theorem run_merges_of_absent (usable : Usable cache (store.fresh + 3 * merges.length) store)
    (absent : Absent cache store)
    (writable : ∀ merge ∈ merges,
      merge.IsWritable fun text => (opened cache store).isDirectory ⟨text⟩) :
    ∃ after, (merges.mapM (Merge.program cache)).run store =
        (merges.map fun merge => .ok merge.outcome, after) ∧
      Cache.linesOf (contentIn cache after) =
        (Record.latest (merges.filterMap (Merge.record? fun text =>
          (opened cache store).isDirectory ⟨text⟩))).map Record.line ∧
      ∀ policy, ∃ afterLoad, Attempt.Succeeds (Cache.load ⟨cache, policy⟩) after
        (Record.latest (merges.filterMap (Merge.record? fun text =>
          (opened cache store).isDirectory ⟨text⟩))) afterLoad := by
  have plain : ∀ record ∈ merges.filterMap (Merge.record? fun text =>
      (opened cache store).isDirectory ⟨text⟩), record.IsPlain ∧ record.IsWritable := by
    intro record inside
    obtain ⟨merge, found, built⟩ := List.mem_filterMap.mp inside
    exact ⟨(writable merge found).plain record built, (writable merge found).record built⟩
  obtain ⟨after, ran, content, settles⟩ :=
    run_merges (fun merge inside => (writable merge inside).patient) usable (Nat.le_refl _)
  rw [absent.empty, foldl_effect writable] at content
  have lines := congrArg Cache.linesOf content
  rw [linesOf_contentOf fun record inside => (plain record inside).1] at lines
  refine ⟨after, ran, lines, fun policy => ?_⟩
  cases merges with
  | nil =>
      obtain rfl : store = after := congrArg Prod.snd ran
      have missing : (store.pause 1).readText cache = .error .missing := by
        rw [← absent.unread, Store.readText, Store.readText, reach_pause]
        rfl
      have answered : store.answerAfter 1 (.readText cache) = (.error .missing, store.pause 1) :=
        congrArg (·, store.pause 1) missing
      exact ⟨_, load_succeeds policy (.ask answered (.pure _ _))⟩
  | cons merge rest =>
      obtain ⟨usableToo, unopened⟩ := settles (List.cons_ne_nil _ _)
      have ready := usableToo.ready
      rw [unopened] at ready
      rw [contentIn, unopened] at lines
      have reads := readLines_succeeds policy ready.toReplaceable
      rw [lines] at reads
      have loads := load_succeeds policy reads
      rw [parse_latest fun record inside => (plain record inside).2] at loads
      exact ⟨_, loads⟩

end Runs

/-- Merges into one cache that nothing interferes with, one after another, leave the last
record of each source.

A cache that was missing holds one line for each source that had a merge with imports, in
the order of the last such merges, and loading it gives exactly the records of these. A
merge into a cache with any text takes away the first line about its source and puts a
line at the end. The other lines are kept in their order, well-formed or not, except that
a line which itself ends with a carriage return is read again without it. -/
theorem merges_leave_latest (cache : Path) (start : Store) :
    (∀ merges : List Merge, Usable cache (start.fresh + 3 * merges.length) start →
      Absent cache start →
      (∀ merge ∈ merges, merge.IsWritable fun text => (opened cache start).isDirectory ⟨text⟩) →
      ∃ after records, (merges.mapM (Merge.program cache)).run start =
          (merges.map fun merge => .ok merge.outcome, after) ∧
        records = merges.filterMap
          (Merge.record? fun text => (opened cache start).isDirectory ⟨text⟩) ∧
        Cache.linesOf (contentIn cache after) = (Record.latest records).map Record.line ∧
        (∀ path, (Record.latest records).filter (fun record => record.path = path) =
          (records.filter fun record => record.path = path).getLast?.toList) ∧
        ∀ policy, ∃ afterLoad,
          Attempt.Succeeds (Cache.load ⟨cache, policy⟩) after (Record.latest records) afterLoad) ∧
      ∀ (merge : Merge) (record : Record) (text : String),
        Usable cache (start.fresh + 3) start → 0 < merge.policy.attempts →
        merge.record? (fun text => (opened cache start).isDirectory ⟨text⟩) = some record →
        contentIn cache start = some (.text text) →
        ∃ after kept, (merge.program cache).run start = (.ok .updated, after) ∧
          kept = (Cache.linesOf (some (.text text))).eraseP
            (fun line => Record.key? line = some merge.imports.source) ∧
          contentIn cache after = some (.text (Cache.textOf (kept ++ [record.line]))) ∧
          (record.IsPlain → Cache.linesOf (contentIn cache after) =
            kept.map Text.withoutReturn ++ [record.line]) ∧
          ∀ line ∈ kept, line.toList.getLast? ≠ some '\r' → Text.withoutReturn line = line := by
  constructor
  · intro merges usable absent writable
    obtain ⟨after, ran, lines, loads⟩ := run_merges_of_absent usable absent writable
    exact ⟨after, _, ran, rfl, lines, Record.filter_latest _, loads⟩
  · intro merge record text usable patient built content
    obtain ⟨after, ran, rewrites⟩ := run_program merge patient usable (Nat.le_refl _)
    obtain ⟨path, -, -, -⟩ := Record.ofImports?_eq_some built
    have written : contentIn cache after = some (.text (Cache.textOf
        ((Cache.linesOf (some (.text text))).eraseP
          (fun line => Record.key? line = some merge.imports.source) ++ [record.line]))) := by
      rw [contentIn, (usable_of_rewrites merge usable rewrites).2, rewrites.rewritten,
        Merge.effect, built, content]
      dsimp only
      rw [Cache.replaceLine, path]
    rw [Merge.outcome_of_built built] at ran
    refine ⟨after, _, ran, rfl, written, fun plain => ?_,
      fun line _ => Text.withoutReturn_of_getLast⟩
    rw [written, Cache.linesOf_textOf, List.map_append, List.map_singleton,
      Cache.withoutReturn_line]
    intro line inside
    rcases List.mem_append.mp inside with kept | last
    · exact Cache.linesOf_unbroken _ line (List.mem_of_mem_eraseP kept)
    · rw [List.mem_singleton.mp last]
      exact plain.line_unbroken

/-- Four merges of two sources, the third of them without imports. -/
def fourMerges : List Merge :=
  [ { imports := ⟨"A", ["import p.X;"], "r"⟩, now := 1 },
    { imports := ⟨"B", ["import q.Y;"], "r"⟩, now := 2 },
    { imports := ⟨"A", [], "r"⟩, now := 3 },
    { imports := ⟨"A", ["import p.Z;"], "r"⟩, now := 4 } ]

/-- A cache with a line that ends with a carriage return of its own, and a malformed one. -/
def withReturn : Store where
  entries := [(["deps"], .file 0)]
  files := [(0, ⟨.text "odd\r\r\nA|old\nB|2;2;q/;Y.java;\n", 0⟩)]
  fresh := 1

theorem empty_usable : Usable ⟨"deps"⟩ 12 {} :=
  Ready.usable (by decide +kernel)
    { numbered := isNumbered_of_entries fun _ inside => by cases inside
      placed := by decide +kernel
      readable := by
        intro number named
        have none : Store.number? {} ⟨"deps"⟩ = none := by decide +kernel
        cases none.symm.trans named
      temporary := by
        have free : ∀ count < 12,
            (Store.place? {} (temporaryFor ⟨"deps"⟩ count)).isSome ∧
              Store.number? {} (temporaryFor ⟨"deps"⟩ count) = none ∧
              Store.place? {} (temporaryFor ⟨"deps"⟩ count) ≠ Store.place? {} ⟨"deps"⟩ := by
          decide +kernel
        exact fun count _ below => free count below
      lockPlaced := by decide +kernel
      unlocked := by decide +kernel }

theorem withReturn_usable : Usable ⟨"deps"⟩ 4 withReturn :=
  Ready.usable (by decide +kernel)
    { numbered := by
        apply isNumbered_of_entries
        rintro entry inside number file
        obtain rfl := List.mem_singleton.mp inside
        obtain rfl := Entry.file.inj file
        decide
      placed := by decide +kernel
      readable := by
        intro number named
        have zero : withReturn.number? ⟨"deps"⟩ = some 0 := by decide +kernel
        obtain rfl := Option.some.inj (zero.symm.trans named)
        exact ⟨_, rfl⟩
      temporary := by
        have free : ∀ count < 4,
            (withReturn.place? (temporaryFor ⟨"deps"⟩ count)).isSome ∧
              withReturn.number? (temporaryFor ⟨"deps"⟩ count) = none ∧
              withReturn.place? (temporaryFor ⟨"deps"⟩ count) ≠
                withReturn.place? ⟨"deps"⟩ := by
          decide +kernel
        exact fun count _ below => free count below
      lockPlaced := by decide +kernel
      unlocked := by decide +kernel }

theorem fourMerges_leave_latest :
    (∃ after, (fourMerges.mapM (Merge.program ⟨"deps"⟩)).run {} =
        ([.ok .updated, .ok .updated, .ok .unchanged, .ok .updated], after) ∧
      Cache.linesOf (contentIn ⟨"deps"⟩ after) = ["B|2;2;q/;Y.java;", "A|4;4;p/;Z.java;"] ∧
      ∃ afterLoad, Attempt.Succeeds (Cache.load ⟨⟨"deps"⟩, {}⟩) after
        [⟨"B", 2, 2, [⟨"q/", "Y.java"⟩]⟩, ⟨"A", 4, 4, [⟨"p/", "Z.java"⟩]⟩] afterLoad) ∧
    ∃ after, (Merge.program ⟨"deps"⟩ { imports := ⟨"A", ["import p.Z;"], "r"⟩, now := 4 }).run
        withReturn = (.ok .updated, after) ∧
      contentIn ⟨"deps"⟩ after = some (.text "odd\r\nB|2;2;q/;Y.java;\nA|4;4;p/;Z.java;\n") ∧
      Cache.linesOf (contentIn ⟨"deps"⟩ after) =
        ["odd", "B|2;2;q/;Y.java;", "A|4;4;p/;Z.java;"] := by
  have absent : Absent ⟨"deps"⟩ {} := ⟨rfl, rfl⟩
  have writable : ∀ merge ∈ fourMerges,
      merge.IsWritable fun text => (opened ⟨"deps"⟩ {}).isDirectory ⟨text⟩ := by
    have checked : ∀ merge ∈ fourMerges, 0 < merge.policy.attempts ∧ merge.now < Nat.pow 2 64 ∧
        ∀ record ∈ merge.record? fun text => (opened ⟨"deps"⟩ {}).isDirectory ⟨text⟩,
          record.IsPlain := by decide +kernel
    exact fun merge inside => ⟨(checked merge inside).1, (checked merge inside).2.1,
      (checked merge inside).2.2⟩
  constructor
  · obtain ⟨after, records, ran, rfl, lines, -, loads⟩ :=
      (merges_leave_latest ⟨"deps"⟩ {}).1 fourMerges empty_usable absent writable
    obtain ⟨afterLoad, loaded⟩ := loads {}
    exact ⟨after, ran, lines, afterLoad, loaded⟩
  · obtain ⟨after, kept, ran, rfl, content, lines, -⟩ :=
      (merges_leave_latest ⟨"deps"⟩ withReturn).2
        { imports := ⟨"A", ["import p.Z;"], "r"⟩, now := 4 }
        ⟨"A", 4, 4, [⟨"p/", "Z.java"⟩]⟩ _ withReturn_usable (by decide) (by decide +kernel)
        rfl
    exact ⟨after, ran, content, lines (by decide +kernel)⟩

/-- A line that ends with a carriage return of its own, and is not about the source of a
merge, is not kept as it is. -/
theorem withReturn_loses_return :
    "odd\r" ∈ Cache.linesOf (contentIn ⟨"deps"⟩ withReturn) ∧
      Record.key? "odd\r" = none ∧
      ((Merge.program ⟨"deps"⟩ { imports := ⟨"A", ["import p.Z;"], "r"⟩, now := 4 }).run
        withReturn).1 = .ok .updated ∧
      "odd\r" ∉ Cache.linesOf (contentIn ⟨"deps"⟩ ((Merge.program ⟨"deps"⟩
        { imports := ⟨"A", ["import p.Z;"], "r"⟩, now := 4 }).run withReturn).2) := by
  decide +kernel

end Dependencies

end JavaStructure
