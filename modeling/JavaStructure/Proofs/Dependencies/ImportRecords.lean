/-
# Records of written imports

The record of imports as they are written is always read back from its line. The line itself is
whole unless one of the blanks that are not dropped is a line feed: then a cache falls apart at
it, and loading the cache does not give the record that was merged into it.
-/

import JavaStructure.Proofs.Dependencies.ImportTexts
import JavaStructure.Proofs.Dependencies.LatestRecords
import JavaStructure.Proofs.Dependencies.RoundTrip

namespace JavaStructure

theorem Text.mem_of_mem_splitOn {mark c : Char} {text piece : List Char}
    (found : piece ∈ text.splitOn mark) (inside : c ∈ piece) : c ∈ text := by
  have joined : [mark].intercalate (text.splitOn mark) = text := List.intercalate_splitOn mark
  rw [← joined]
  cases cut : text.splitOn mark with
  | nil =>
      rw [cut] at found
      cases found
  | cons first rest =>
      rw [cut] at found
      rw [intercalate_cons, List.mem_append]
      rcases List.mem_cons.mp found with rfl | later
      · exact .inl inside
      · exact .inr (List.mem_flatMap.mpr ⟨piece, later, List.mem_cons_of_mem _ inside⟩)

namespace Dependencies

open Store

namespace Record

variable {record : Record} {isDirectory : String → Bool} {path root : String}
variable {declarations : List ImportText} {now : Nat} {c : Char}

theorem mem_line_of_mem_field {field : List Char} (found : field ∈ record.fields)
    (inside : c ∈ field) : c ∈ record.line.toList := by
  rw [toList_line]
  refine List.mem_append_right _ (List.mem_cons_of_mem _ (List.mem_flatMap.mpr ?_))
  exact ⟨field, found, List.mem_append_left _ inside⟩

/-- A line is broken where its path or one of its entries is. -/
theorem line_unbroken_iff : '\n' ∉ record.line.toList ↔ '\n' ∉ record.path.toList ∧
    ∀ entry ∈ record.imports, '\n' ∉ entry.directory.toList ∧ '\n' ∉ entry.file.toList := by
  constructor
  · intro unbroken
    have entries (entry : ImportEntry) (inside : entry ∈ record.imports) (field : List Char)
        (either : field ∈ [entry.directory.toList, entry.file.toList]) : '\n' ∉ field :=
      fun feed => unbroken (mem_line_of_mem_field (.tail _ (.tail _
        (List.mem_flatMap.mpr ⟨entry, inside, either⟩))) feed)
    refine ⟨fun feed => unbroken ?_, fun entry inside =>
      ⟨entries entry inside _ (by simp), entries entry inside _ (by simp)⟩⟩
    rw [toList_line]
    exact List.mem_append_left _ feed
  · exact fun ⟨whole, entries⟩ => line_unbroken whole entries

/-- A record that was read from an unbroken line has an unbroken line. -/
theorem line_unbroken_of_parse? {line : String} (read : parse? line = some record)
    (unbroken : '\n' ∉ line.toList) : '\n' ∉ record.line.toList := by
  obtain ⟨front, rest, parseText, checkText, values, cut, among, whole, -, -, imports⟩ :=
    exists_of_parse? read
  rw [Text.eq_append_of_cutFirst cut, List.mem_append, List.mem_cons, not_or, not_or] at unbroken
  obtain ⟨frontUnbroken, -, restUnbroken⟩ := unbroken
  have pieces (value : List Char) (inside : value ∈ values) : '\n' ∉ value := by
    have listed : value ∈ (rest.splitOn ';').filter fun value => !value.isEmpty := by
      rw [among]
      exact .tail _ (.tail _ inside)
    exact fun feed =>
      restUnbroken (Text.mem_of_mem_splitOn (List.mem_of_mem_filter listed) feed)
  refine line_unbroken ?_ fun entry inside => ?_
  · rwa [whole, String.toList_ofList]
  · rw [imports] at inside
    exact ⟨pieces _ (mem_pairs inside).1, pieces _ (mem_pairs inside).2⟩

/-- What is put around a target is the root, a slash and the suffix. -/
theorem mem_entryFor_iff (isDirectory : String → Bool) (target : String × String)
    (rootless : c ∉ root.toList) (other : c ≠ '/')
    (suffix : c ∉ ".java".toList) :
    (c ∈ (entryFor isDirectory root target).directory.toList ↔ c ∈ target.1.toList) ∧
      (c ∈ (entryFor isDirectory root target).file.toList ↔ c ∈ target.2.toList) := by
  have separated : c ∉ (withSeparator root).toList := by
    rw [withSeparator]
    split
    · exact rootless
    · exact rootless
    · rw [String.toList_append, List.mem_append, not_or]
      exact ⟨rootless, by simpa using other⟩
  constructor
  · rw [entryFor]
    dsimp only
    split
    · rw [String.toList_append, List.mem_append]
      exact or_iff_right separated
    · exact Iff.rfl
  · rw [entryFor, String.toList_append, List.mem_append]
    exact or_iff_left suffix

/-- The record of imports as they are written. -/
theorem ofImports?_texts (isDirectory : String → Bool) (path root : String) (now : Nat)
    (legal : ∀ declaration ∈ declarations, declaration.IsLegal)
    (nonempty : declarations ≠ []) :
    ofImports? isDirectory path (declarations.map ImportText.text) root now =
      some ⟨path, now, now, declarations.map fun declaration =>
        entryFor isDirectory root declaration.readTarget⟩ := by
  have targets : (declarations.map ImportText.text).filterMap importTarget? =
      declarations.map ImportText.readTarget := by
    induction declarations with
    | nil => rfl
    | cons declaration rest ih =>
        obtain ⟨first, others⟩ := List.forall_mem_cons.mp legal
        rw [List.map_cons, List.map_cons, List.filterMap_cons_some first.importTarget?_text]
        cases rest with
        | nil => rfl
        | cons next rest => rw [ih others (List.cons_ne_nil _ _)]
  have listed : (declarations.map ImportText.text).isEmpty = false := by
    cases declarations with
    | nil => exact absurd rfl nonempty
    | cons => rfl
  rw [ofImports?, listed, if_neg Bool.false_ne_true, targets, List.map_map]
  rfl

/-- Its entries hold no semicolon, and a line feed exactly where it was not dropped. -/
theorem entryFor_readTarget (isDirectory : String → Bool) {declaration : ImportText}
    (legal : declaration.IsLegal)
    (rootPlain : ';' ∉ root.toList ∧ '\n' ∉ root.toList) :
    let entry := entryFor isDirectory root declaration.readTarget
    (';' ∉ entry.directory.toList ∧ ';' ∉ entry.file.toList) ∧
      ('\n' ∉ entry.directory.toList ∧ '\n' ∉ entry.file.toList ↔
        '\n' ∉ declaration.keptBlanks) := by
  intro entry
  obtain ⟨directory, file⟩ := mem_entryFor_iff isDirectory
    declaration.readTarget rootPlain.1 (by decide) (by decide)
  obtain ⟨directoryFeed, fileFeed⟩ := mem_entryFor_iff isDirectory
    declaration.readTarget rootPlain.2 (by decide) (by decide)
  have unmarked := legal.semicolon_not_mem
  constructor
  · rw [directory, file]
    exact unmarked
  · rw [directoryFeed, fileFeed, legal.mem_keptBlanks_iff (by decide), not_or,
      declaration.mem_readTarget_iff (by decide)]

end Record

/-- What can be done with many temporary files can be done with fewer. -/
theorem Usable.of_le {cache : Path} {store : Store} {fewer limit : Nat}
    (usable : Usable cache limit store) (fewer_le : fewer ≤ limit) : Usable cache fewer store where
  made := usable.made
  ready :=
    { usable.ready with
      temporary := fun count later below =>
        usable.ready.temporary count later (Nat.lt_of_lt_of_le below fewer_le) }

section Merged

variable {cache : Path} {store : Store} {merge : Merge} {record : Record}

/-- After the merge of a record, a cache is loaded with that record exactly if its line is
unbroken. -/
theorem merge_then_load (merge : Merge) (patient : 0 < merge.policy.attempts)
    (usable : Usable cache (store.fresh + 3) store)
    (built : merge.record? (fun text => (opened cache store).isDirectory ⟨text⟩) = some record)
    (writable : record.IsWritable) (policy : RetryPolicy) :
    ∃ after loaded afterLoad, (merge.program cache).run store = (.ok .updated, after) ∧
      Attempt.Succeeds (Cache.load ⟨cache, policy⟩) after loaded afterLoad ∧
      (record ∈ loaded ↔ '\n' ∉ record.line.toList) := by
  obtain ⟨after, ran, rewrites⟩ := run_program merge patient usable (Nat.le_refl _)
  obtain ⟨usableAfter, settled⟩ := usable_of_rewrites merge usable rewrites
  rw [Merge.outcome_of_built built] at ran
  have ready := usableAfter.ready
  rw [settled] at ready
  have loads := load_succeeds policy (readLines_succeeds policy ready.toReplaceable)
  refine ⟨after, _, _, ran, loads, ?_⟩
  rw [List.mem_filterMap]
  constructor
  · rintro ⟨line, inside, read⟩
    exact Record.line_unbroken_of_parse? read (Cache.linesOf_unbroken _ line inside)
  · intro unbroken
    refine ⟨record.line, ?_, writable.parse?_line⟩
    rw [rewrites.rewritten, Merge.effect, built]
    dsimp only
    have whole : ∀ line ∈ Cache.replaceLine (Cache.linesOf (contentIn cache store)) record,
        '\n' ∉ line.toList := by
      intro line inside
      rcases List.mem_append.mp inside with kept | last
      · exact Cache.linesOf_unbroken _ line (List.mem_of_mem_eraseP kept)
      · rw [List.mem_singleton.mp last]
        exact unbroken
    rw [Cache.linesOf_textOf whole, Cache.replaceLine, List.map_append, List.map_singleton,
      Cache.withoutReturn_line]
    exact List.mem_append_right _ List.mem_cons_self

end Merged

/-- What is recorded of imports as they are written.

The directory and the leaf of a declaration are those that it names exactly if no blank is kept:
none behind `static`, unless the first of them is a space, and none around a dot. The record of
such imports, with a path and a root that hold no marks, is read back from its line. That line is
unbroken, and loading a cache into which the record was merged gives the record, exactly if no
line feed is kept. -/
theorem writtenImports_recorded (declarations : List ImportText) (path root : String) (now : Nat)
    (nonempty : declarations ≠ [])
    (legal : ∀ declaration ∈ declarations, declaration.IsLegal)
    (pathPlain : '|' ∉ path.toList ∧ '\n' ∉ path.toList)
    (rootPlain : ';' ∉ root.toList ∧ '\n' ∉ root.toList) (timely : now < Nat.pow 2 64) :
    (∀ declaration ∈ declarations,
      (importTarget? declaration.text = some declaration.target ↔ declaration.keptBlanks = [])) ∧
    (∀ isDirectory, ∃ record,
      Record.ofImports? isDirectory path (declarations.map ImportText.text) root now =
        some record ∧
      Record.parse? record.line = some record ∧
      ('\n' ∉ record.line.toList ↔
        ∀ declaration ∈ declarations, '\n' ∉ declaration.keptBlanks) ∧
      ((∀ declaration ∈ declarations, declaration.keptBlanks = []) →
        record.imports = declarations.map fun declaration =>
          Record.entryFor isDirectory root declaration.target)) ∧
    ∀ (cache : Path) (store : Store) (policy : RetryPolicy) (record : Record),
      0 < policy.attempts → Usable cache (store.fresh + 3) store →
      Record.ofImports? (fun text => (opened cache store).isDirectory ⟨text⟩) path
        (declarations.map ImportText.text) root now = some record →
      ∃ after loaded afterLoad,
        (Merge.program cache ⟨policy, ⟨path, declarations.map ImportText.text, root⟩, now⟩).run
            store = (.ok .updated, after) ∧
          Attempt.Succeeds (Cache.load ⟨cache, policy⟩) after loaded afterLoad ∧
          (record ∈ loaded ↔
            ∀ declaration ∈ declarations, '\n' ∉ declaration.keptBlanks) := by
  refine ⟨fun declaration inside => (legal declaration inside).importTarget?_eq_target_iff, ?_⟩
  have entries (isDirectory : String → Bool) := fun declaration inside =>
    Record.entryFor_readTarget isDirectory (legal declaration inside) rootPlain
  have built (isDirectory : String → Bool) := Record.ofImports?_texts isDirectory path root now
    legal nonempty
  have writable (isDirectory : String → Bool) (record : Record)
      (made : Record.ofImports? isDirectory path (declarations.map ImportText.text) root now =
        some record) : record.IsWritable := by
    obtain ⟨-, -, -, named⟩ := Record.ofImports?_eq_some made
    obtain rfl := Option.some.inj ((built isDirectory).symm.trans made)
    have plain (entry : ImportEntry) (inside : entry ∈ declarations.map fun declaration =>
        Record.entryFor isDirectory root declaration.readTarget) :
        ';' ∉ entry.directory.toList ∧ ';' ∉ entry.file.toList := by
      obtain ⟨declaration, found, rfl⟩ := List.mem_map.mp inside
      exact (entries isDirectory declaration found).1
    exact ⟨pathPlain.1, timely, timely,
      fun entry inside => ⟨(named entry inside).1, (plain entry inside).1⟩,
      fun entry inside => ⟨(named entry inside).2, (plain entry inside).2⟩⟩
  have unbroken (isDirectory : String → Bool) (record : Record)
      (made : Record.ofImports? isDirectory path (declarations.map ImportText.text) root now =
        some record) : '\n' ∉ record.line.toList ↔
          ∀ declaration ∈ declarations, '\n' ∉ declaration.keptBlanks := by
    obtain rfl := Option.some.inj ((built isDirectory).symm.trans made)
    rw [Record.line_unbroken_iff, List.forall_mem_map]
    refine (and_iff_right pathPlain.2).trans ?_
    exact forall₂_congr fun declaration inside => (entries isDirectory declaration inside).2
  constructor
  · intro isDirectory
    refine ⟨_, built isDirectory, (writable _ _ (built isDirectory)).parse?_line,
      unbroken _ _ (built isDirectory), fun dropped => ?_⟩
    refine List.map_congr_left fun declaration inside => ?_
    have exactTarget := (legal declaration inside).importTarget?_eq_target_iff.mpr
      (dropped declaration inside)
    rw [(legal declaration inside).importTarget?_text, Option.some.injEq] at exactTarget
    rw [exactTarget]
  · intro cache store policy record patient usable made
    obtain ⟨after, loaded, afterLoad, ran, loads, whole⟩ := merge_then_load
      ⟨policy, ⟨path, declarations.map ImportText.text, root⟩, now⟩ patient usable made
      (writable _ record made) policy
    exact ⟨after, loaded, afterLoad, ran, loads, whole.trans (unbroken _ record made)⟩

/-- An import with a tab behind the word `static`. -/
def tabbedStatic : ImportText where
  gap := [' ']
  static? := some ['\t']
  first := "pkg".toList
  middle := [⟨[], [], "Util".toList⟩]
  last := ⟨[], [], "helper".toList⟩
  ending := []

/-- An import whose name is continued on the next line. -/
def brokenName : ImportText where
  gap := [' ']
  static? := none
  first := "java".toList
  middle := [⟨[], ['\n'], "util".toList⟩]
  last := ⟨[], [], "List".toList⟩
  ending := []

/-- An import with blanks only where they are dropped. -/
def spacedImport : ImportText where
  gap := ['\t', '\n']
  static? := some [' ', '\n']
  first := "pkg".toList
  middle := []
  last := ⟨[], [], "*".toList⟩
  ending := ['\n']

theorem spacedImport_recorded :
    importTarget? "import\t\nstatic \npkg.*\n;" = some ("pkg/", "*") ∧
      ∃ after loaded afterLoad,
        (Merge.program ⟨"deps"⟩ { imports := ⟨"A", [spacedImport.text], "r"⟩, now := 7 }).run {} =
            (.ok .updated, after) ∧
          Attempt.Succeeds (Cache.load ⟨⟨"deps"⟩, {}⟩) after loaded afterLoad ∧
          ⟨"A", 7, 7, [⟨"pkg/", "*.java"⟩]⟩ ∈ loaded := by
  have legal : ∀ declaration ∈ [spacedImport], declaration.IsLegal := by decide
  have dropped : spacedImport.keptBlanks = [] := by decide
  obtain ⟨targets, -, merges⟩ := writtenImports_recorded [spacedImport] "A" "r" 7 (by decide) legal
    (by decide) (by decide) (by decide)
  constructor
  · exact (targets _ List.mem_cons_self).mpr dropped
  · obtain ⟨after, loaded, afterLoad, ran, loads, whole⟩ :=
      merges ⟨"deps"⟩ {} {} _ (by decide) (empty_usable.of_le (by decide)) rfl
    refine ⟨after, loaded, afterLoad, ran, loads, whole.mpr fun declaration inside => ?_⟩
    rw [List.mem_singleton.mp inside, dropped]
    exact List.not_mem_nil

/-- A tab behind `static` leaves that word in the directory, and a line feed in a name breaks the
line, so that loading the cache gives no record at all. -/
theorem brokenName_lost :
    (tabbedStatic.IsLegal ∧ tabbedStatic.text = "import static\tpkg.Util.helper;" ∧
      tabbedStatic.target = ("pkg/Util/", "helper") ∧
      importTarget? tabbedStatic.text = some ("static\tpkg/Util/", "helper")) ∧
    brokenName.IsLegal ∧ brokenName.text = "import java.\nutil.List;" ∧
      Record.ofImports? (fun _ => false) "A" [brokenName.text] "r" 1 =
        some ⟨"A", 1, 1, [⟨"java/\nutil/", "List.java"⟩]⟩ ∧
      '\n' ∈ (Record.line ⟨"A", 1, 1, [⟨"java/\nutil/", "List.java"⟩]⟩).toList ∧
      ((Merge.program ⟨"deps"⟩ { imports := ⟨"A", [brokenName.text], "r"⟩, now := 1 }).run {}).1 =
        .ok .updated ∧
      ((Cache.load ⟨⟨"deps"⟩, {}⟩).run.run ((Merge.program ⟨"deps"⟩
        { imports := ⟨"A", [brokenName.text], "r"⟩, now := 1 }).run {}).2).1 = .ok [] := by
  decide +kernel

end Dependencies

end JavaStructure
