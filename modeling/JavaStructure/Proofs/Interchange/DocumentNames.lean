/-
# Names of documents

The document of a source is named by the path of the source below the root of the sources, with
dots and separators written out. Two sources get different names unless one of the two paths
spells out a mark where the other has it, or the two have different separators. Different names
lead to different files, whatever directories they are put into, and so do the names of the line
hashes that are made from them.
-/

import JavaStructure.Interchange.Output
import JavaStructure.Proofs.Dependencies.Neighbours
import JavaStructure.Proofs.Files.Directories
import JavaStructure.Proofs.Files.FileNames

namespace JavaStructure

variable {text textToo : List Char} {c : Char}

namespace Interchange

/-- A path separator. -/
def isSeparator (c : Char) : Bool :=
  c == '/' || c == '\\'

/-- What a character of a path becomes in the name of a document. -/
def flattened (c : Char) : List Char :=
  if c = '.' then ['_', 'd'] else if isSeparator c then ['_', 's'] else [c]

theorem flattenSeparators_eq (text : List Char) :
    flattenSeparators text =
      text.flatMap fun c => if isSeparator c then ['_', 's'] else [c] := by
  simp [flattenSeparators, isSeparator]

/-- Dots are written out first and separators after them, which is the same as both at once. -/
theorem flattenSeparators_replaceChar (text : List Char) :
    flattenSeparators (Text.replaceChar '.' ['_', 'd'] text) = text.flatMap flattened := by
  rw [flattenSeparators_eq, Text.replaceChar, List.flatMap_assoc]
  refine congrArg (text.flatMap ·) (funext fun c => ?_)
  rw [flattened]
  split <;> simp [isSeparator]

theorem dot_not_mem_flatMap (text : List Char) : '.' ∉ text.flatMap flattened := by
  intro inside
  obtain ⟨c, -, within⟩ := List.mem_flatMap.mp inside
  rw [flattened] at within
  split at within
  · simp at within
  · split at within
    · simp at within
    · next noDot _ => exact noDot (List.mem_singleton.mp within).symm

theorem slash_not_mem_flattenSeparators (text : List Char) : '/' ∉ flattenSeparators text := by
  intro inside
  rw [flattenSeparators_eq] at inside
  obtain ⟨c, -, within⟩ := List.mem_flatMap.mp inside
  split at within
  · simp at within
  · next noSeparator =>
      rw [← List.mem_singleton.mp within] at noSeparator
      exact noSeparator rfl

/-- Different words that are flattened alike: a mark and the word that spells it out, or the two
separators. -/
inductive SpellsOut : List Char → List Char → Prop
  | dot : SpellsOut ['.'] ['_', 'd']
  | separator {c : Char} (mark : isSeparator c = true) : SpellsOut [c] ['_', 's']
  | separators : SpellsOut ['/'] ['\\']

/-- Two texts that can be mistaken for each other: where they first differ they have different
words that are flattened alike, and so is what follows these. -/
def AreConfusable (text textToo : List Char) : Prop :=
  ∃ front word wordToo rest restToo, text = front ++ (word ++ rest) ∧
    textToo = front ++ (wordToo ++ restToo) ∧ (SpellsOut word wordToo ∨ SpellsOut wordToo word) ∧
      rest.flatMap flattened = restToo.flatMap flattened

theorem AreConfusable.cons (c : Char) (confusable : AreConfusable text textToo) :
    AreConfusable (c :: text) (c :: textToo) := by
  obtain ⟨front, word, wordToo, rest, restToo, rfl, rfl, spells, alike⟩ := confusable
  exact ⟨c :: front, word, wordToo, rest, restToo, rfl, rfl, spells, alike⟩

theorem AreConfusable.symm (confusable : AreConfusable text textToo) :
    AreConfusable textToo text := by
  obtain ⟨front, word, wordToo, rest, restToo, own, other, spells, alike⟩ := confusable
  exact ⟨front, wordToo, word, restToo, rest, other, own, spells.symm, alike.symm⟩

theorem areConfusable_of_spells {word wordToo rest restToo : List Char}
    (spells : SpellsOut word wordToo) (alike : rest.flatMap flattened = restToo.flatMap flattened) :
    AreConfusable (word ++ rest) (wordToo ++ restToo) :=
  ⟨[], word, wordToo, rest, restToo, rfl, rfl, .inl spells, alike⟩

theorem SpellsOut.flatMap_eq {word wordToo : List Char} (spells : SpellsOut word wordToo) :
    word.flatMap flattened = wordToo.flatMap flattened := by
  cases spells with
  | dot => rfl
  | separators => rfl
  | separator mark =>
      simp only [isSeparator, Bool.or_eq_true, beq_iff_eq] at mark
      rcases mark with rfl | rfl <;> rfl

theorem AreConfusable.flatMap_eq (confusable : AreConfusable text textToo) :
    text.flatMap flattened = textToo.flatMap flattened := by
  obtain ⟨front, word, wordToo, rest, restToo, rfl, rfl, spells, alike⟩ := confusable
  have words : word.flatMap flattened = wordToo.flatMap flattened :=
    spells.elim SpellsOut.flatMap_eq fun other => other.flatMap_eq.symm
  simp only [List.flatMap_append, words, alike]

/-- A dot and a separator are spelled out, anything else stays. -/
inductive Flattens (c : Char) : Prop
  | dot (is : c = '.') (spelled : flattened c = ['_', 'd'])
  | separator (is : isSeparator c = true) (spelled : flattened c = ['_', 's'])
  | plain (kept : flattened c = [c])

theorem flattens (c : Char) : Flattens c := by
  by_cases dot : c = '.'
  · exact .dot dot (if_pos dot)
  · cases separator : isSeparator c with
    | true => exact .separator separator (by rw [flattened, if_neg dot, if_pos separator])
    | false =>
        refine .plain ?_
        rw [flattened, if_neg dot, if_neg (Bool.eq_false_iff.mp separator)]

/-- What is flattened to a text that begins with a letter begins with the letter itself. -/
theorem exists_of_flatMap_eq_cons {letter : Char} (plain : letter ≠ '_') {later : List Char}
    (flat : text.flatMap flattened = letter :: later) :
    ∃ rest, text = letter :: rest ∧ rest.flatMap flattened = later := by
  cases text with
  | nil => cases flat
  | cons c rest =>
      rw [List.flatMap_cons] at flat
      cases flattens c with
      | dot _ spelled | separator _ spelled =>
          rw [spelled] at flat
          exact absurd (List.cons.inj flat).1.symm plain
      | plain kept =>
          rw [kept] at flat
          obtain ⟨rfl, same⟩ := List.cons.inj flat
          exact ⟨rest, rfl, same⟩

/-- A character that stays is an underscore where it is taken for the start of a mark that is
spelled out, and the letter of the mark follows it. -/
theorem areConfusable_of_kept {d letter : Char} (plain : letter ≠ '_')
    (spelled : flattened c = ['_', letter]) (spells : SpellsOut [c] ['_', letter])
    (kept : flattened d = [d])
    (same : flattened c ++ text.flatMap flattened = flattened d ++ textToo.flatMap flattened) :
    AreConfusable (c :: text) (d :: textToo) := by
  rw [kept, spelled] at same
  obtain ⟨rfl, later⟩ := List.cons.inj same
  obtain ⟨rest, rfl, alike⟩ := exists_of_flatMap_eq_cons plain later.symm
  exact areConfusable_of_spells spells alike.symm

/-- Texts that are flattened alike start with the same character, or can be mistaken for each
other from there on. -/
theorem eq_or_areConfusable_head {d : Char}
    (same : (c :: text).flatMap flattened = (d :: textToo).flatMap flattened) :
    c = d ∨ AreConfusable (c :: text) (d :: textToo) := by
  rw [List.flatMap_cons, List.flatMap_cons] at same
  cases flattens c with
  | dot is spelled =>
      subst is
      cases flattens d with
      | dot isToo _ => exact .inl isToo.symm
      | separator _ spelledToo => simp [spelled, spelledToo] at same
      | plain kept => exact .inr (areConfusable_of_kept (by decide) spelled .dot kept same)
  | separator is spelled =>
      cases flattens d with
      | dot _ spelledToo => simp [spelled, spelledToo] at same
      | separator isToo spelledToo =>
          rw [spelled, spelledToo] at same
          have alike := List.append_cancel_left same
          simp only [isSeparator, Bool.or_eq_true, beq_iff_eq] at is isToo
          rcases is with rfl | rfl <;> rcases isToo with rfl | rfl
          · exact .inl rfl
          · exact .inr (areConfusable_of_spells .separators alike)
          · exact .inr (areConfusable_of_spells .separators alike.symm).symm
          · exact .inl rfl
      | plain kept =>
          exact .inr (areConfusable_of_kept (by decide) spelled (.separator is) kept same)
  | plain kept =>
      cases flattens d with
      | dot is spelled =>
          subst is
          exact .inr (areConfusable_of_kept (by decide) spelled .dot kept same.symm).symm
      | separator is spelled =>
          exact .inr
            (areConfusable_of_kept (by decide) spelled (.separator is) kept same.symm).symm
      | plain keptToo =>
          rw [kept, keptToo] at same
          exact .inl (List.cons.inj same).1

theorem flatMap_flattened_ne_nil (c : Char) (rest : List Char) :
    (c :: rest).flatMap flattened ≠ [] := by
  rw [List.flatMap_cons]
  cases flattens c with
  | dot _ spelled | separator _ spelled | plain spelled => simp [spelled]

/-- Two texts that are flattened alike are the same, or can be mistaken for each other. -/
theorem eq_or_areConfusable (same : text.flatMap flattened = textToo.flatMap flattened) :
    text = textToo ∨ AreConfusable text textToo := by
  induction text generalizing textToo with
  | nil =>
      cases textToo with
      | nil => exact .inl rfl
      | cons d rest => exact absurd same.symm (flatMap_flattened_ne_nil d rest)
  | cons c rest ih =>
      cases textToo with
      | nil => exact absurd same (flatMap_flattened_ne_nil c rest)
      | cons d restToo =>
          rcases eq_or_areConfusable_head same with rfl | confusable
          · rw [List.flatMap_cons, List.flatMap_cons] at same
            rcases ih (List.append_cancel_left same) with rfl | confusable
            · exact .inl rfl
            · exact .inr (confusable.cons c)
          · exact .inr confusable

theorem byteLength_cons (c : Char) (rest : List Char) :
    byteLength (c :: rest) = c.utf8Size + byteLength rest :=
  rfl

theorem byteLength_append (front back : List Char) :
    byteLength (front ++ back) = byteLength front + byteLength back := by
  induction front with
  | nil => exact (Nat.zero_add _).symm
  | cons c rest ih =>
      rw [List.cons_append, byteLength_cons, byteLength_cons, ih, Nat.add_assoc]

theorem dropBytes?_cons (c : Char) (count : Nat) (rest : List Char) :
    dropBytes? (c.utf8Size + count) (c :: rest) = dropBytes? count rest := by
  have positive := c.utf8Size_pos
  obtain ⟨bytes, total⟩ : ∃ bytes, c.utf8Size + count = bytes + 1 :=
    ⟨c.utf8Size + count - 1, by omega⟩
  have left : bytes + 1 - c.utf8Size = count := by omega
  rw [total, dropBytes?, if_pos (by omega), left]

theorem dropBytes?_append (front back : List Char) :
    dropBytes? (byteLength front) (front ++ back) = some back := by
  induction front with
  | nil => cases back <;> rfl
  | cons c rest ih => rw [List.cons_append, byteLength_cons, dropBytes?_cons, ih]

/-- What stands behind the root and a slash is flattened, and the extension follows it. -/
theorem documentName_eq (root : List Char) {relative : List Char} (extension : List Char) :
    documentName (root ++ '/' :: relative) root extension =
      relative.flatMap flattened ++ '.' :: flattenSeparators extension := by
  have whole : root ++ '/' :: relative = (root ++ ['/']) ++ relative := by simp
  have cut : dropBytes? (byteLength root + 1) (root ++ '/' :: relative) = some relative := by
    have bytes : byteLength (root ++ ['/']) = byteLength root + 1 := byteLength_append root ['/']
    rw [whole, ← bytes, dropBytes?_append]
  have longer : byteLength (root ++ '/' :: relative) > byteLength root := by
    rw [byteLength_append, byteLength_cons]
    exact Nat.lt_add_of_pos_right (Nat.add_pos_left (Char.utf8Size_pos _) _)
  calc documentName (root ++ '/' :: relative) root extension
    _ = flattenSeparators (Text.replaceChar '.' ['_', 'd'] relative ++ '.' :: extension) := by
      rw [documentName, if_pos longer, cut]
      rfl
    _ = flattenSeparators (Text.replaceChar '.' ['_', 'd'] relative) ++
        flattenSeparators ('.' :: extension) :=
      List.flatMap_append
    _ = relative.flatMap flattened ++ '.' :: flattenSeparators extension := by
      rw [flattenSeparators_replaceChar]
      rfl

theorem slash_not_mem_flatMap (text : List Char) : '/' ∉ text.flatMap flattened := by
  rw [← flattenSeparators_replaceChar]
  exact slash_not_mem_flattenSeparators _

/-- The name of a document is a plain name, and so is what is left of it with another ending. -/
theorem isPlainName_flatMap {relative : List Char} (strict : relative ≠ []) {ending : List Char}
    (whole : '/' ∉ ending) : Path.IsPlainName (relative.flatMap flattened ++ ending) := by
  obtain ⟨first, rest, flat⟩ : ∃ first rest, relative.flatMap flattened = first :: rest := by
    obtain ⟨c, rest, rfl⟩ := List.exists_cons_of_ne_nil strict
    exact List.exists_cons_of_ne_nil (flatMap_flattened_ne_nil c rest)
  refine ⟨by simp [flat], fun slash => ?_, fun dot => ?_⟩
  · rcases List.mem_append.mp slash with inside | behind
    · exact slash_not_mem_flatMap relative inside
    · exact whole behind
  · rw [flat, List.cons_append, List.head?_cons] at dot
    exact dot_not_mem_flatMap relative (flat ▸ Option.some.inj dot ▸ List.mem_cons_self)

theorem lastName?_join_flatMap (output : Path) (relative : List Char) {ending : List Char}
    (whole : '/' ∉ ending) :
    (output.join (.ofList (relative.flatMap flattened ++ ending))).lastName? =
      some (relative.flatMap flattened ++ ending) := by
  have plain : '/' ∉ (String.ofList (relative.flatMap flattened ++ ending)).toList := by
    rw [String.toList_ofList]
    exact List.not_mem_append (slash_not_mem_flatMap relative) whole
  rw [Path.lastName?_join output plain, String.toList_ofList]

/-- The line hashes of documents with the same extension are named by the same rule: what is
flattened has the same ending. -/
theorem exists_hashes_ending (extension : List Char) (whole : '/' ∉ extension) :
    ∃ ending : List Char, ∀ (output : Path) (directory : String) (relative : List Char),
      relative ≠ [] →
        (hashesPath (output.join (.ofList (relative.flatMap flattened ++ '.' :: extension)))
          directory).lastName? = some (relative.flatMap flattened ++ ending) := by
  obtain ⟨suffix, within, stem⟩ := Path.exists_stem_suffix extension
  refine ⟨suffix ++ ".hsh".toList, fun output directory relative strict => ?_⟩
  have wholeSuffix : '/' ∉ suffix ++ ".hsh".toList := by
    refine List.not_mem_append (fun slash => ?_) (by decide)
    rcases List.mem_cons.mp (within '/' slash) with dot | inside
    · cases dot
    · exact whole inside
  have nonempty : relative.flatMap flattened ≠ [] := by
    obtain ⟨c, rest, rfl⟩ := List.exists_cons_of_ne_nil strict
    exact flatMap_flattened_ne_nil c rest
  have dotted : '/' ∉ '.' :: extension := List.not_mem_cons_of_ne_of_not_mem (by decide) whole
  have named := stem output _ nonempty (isPlainName_flatMap strict dotted)
  have ended : String.ofList (relative.flatMap flattened ++ suffix) ++ ".hsh" =
      .ofList (relative.flatMap flattened ++ (suffix ++ ".hsh".toList)) := by
    rw [← String.toList_inj]
    simp
  rw [hashesPath, named, Option.getD_some, ended, lastName?_join_flatMap _ _ wholeSuffix]

end Interchange

/-- Two paths differ and never lead to the same place. -/
def Path.LeadsApart (first second : Path) : Prop :=
  first ≠ second ∧
    ∀ store : Store, (store.place? first).isSome → store.place? first ≠ store.place? second

/-- Paths with different last names lead apart. -/
theorem Path.leadsApart_of_lastName {first second : Path}
    (differ : first.lastName? ≠ second.lastName?) : first.LeadsApart second :=
  ⟨fun same => differ (congrArg Path.lastName? same),
    fun _ found => Store.place?_ne_of_lastName found differ⟩

namespace Interchange

open Store (pathOf)

/-- The path that some names make, the last one first. -/
def relativeText (names : Location) : List Char :=
  ['/'].intercalate (names.reverse.map String.toList)

theorem toList_pathOf (location : Location) :
    (pathOf location).text.toList = '/' :: relativeText location := by
  rw [pathOf, String.toList_append, String.toList_intercalate]
  rfl

theorem intercalate_append {front back : List (List Char)} (inner : front ≠ [])
    (strict : back ≠ []) :
    ['/'].intercalate (front ++ back) =
      ['/'].intercalate front ++ '/' :: ['/'].intercalate back := by
  obtain ⟨first, others, rfl⟩ := List.exists_cons_of_ne_nil inner
  obtain ⟨next, rest, rfl⟩ := List.exists_cons_of_ne_nil strict
  calc ['/'].intercalate (first :: (others ++ next :: rest))
    _ = first ++ (others ++ next :: rest).flatMap fun name => '/' :: name := by
      rw [Text.intercalate_cons]
    _ = (first ++ others.flatMap fun name => '/' :: name) ++
        '/' :: (next ++ rest.flatMap fun name => '/' :: name) := by
      rw [List.flatMap_append, List.flatMap_cons, List.append_assoc, List.cons_append]
    _ = _ := by rw [Text.intercalate_cons, Text.intercalate_cons]

variable {root below : Location}

/-- A path below a directory is that of the directory, a slash, and the names below it. -/
theorem toList_pathOf_append (inner : root ≠ []) (strict : below ≠ []) :
    (pathOf (below ++ root)).text.toList =
      (pathOf root).text.toList ++ '/' :: relativeText below := by
  have innerNames : root.reverse.map String.toList ≠ [] := by simpa using inner
  have strictNames : below.reverse.map String.toList ≠ [] := by simpa using strict
  calc (pathOf (below ++ root)).text.toList
    _ = '/' :: ['/'].intercalate
        (root.reverse.map String.toList ++ below.reverse.map String.toList) := by
      rw [toList_pathOf, relativeText, List.reverse_append, List.map_append]
    _ = '/' :: (relativeText root ++ '/' :: relativeText below) :=
      congrArg _ (intercalate_append innerNames strictNames)
    _ = (pathOf root).text.toList ++ '/' :: relativeText below := by
      rw [toList_pathOf, List.cons_append]

theorem relativeText_ne_nil (strict : below ≠ []) (named : ∀ name ∈ below, name ≠ "") :
    relativeText below ≠ [] := by
  obtain ⟨first, others, reversed⟩ :=
    List.exists_cons_of_ne_nil (mt List.reverse_eq_nil_iff.mp strict)
  have nonempty : first ≠ "" :=
    named first (List.mem_reverse.mp (reversed ▸ List.mem_cons_self))
  rw [relativeText, reversed, List.map_cons, Text.intercalate_cons]
  simp [nonempty]

theorem documentPath_eq (inner : root ≠ []) (strict : below ≠ []) (output : Path)
    (extension : String) :
    documentPath (pathOf (below ++ root)) (pathOf root) output extension =
      output.join (.ofList ((relativeText below).flatMap flattened ++
        '.' :: flattenSeparators extension.toList)) := by
  rw [documentPath, toList_pathOf_append inner strict, documentName_eq]

/-- A source that exists strictly below a directory other than the root of all files, the paths of
both being given in any form. -/
structure LiesBelow (store : Store) (rootPath source : Path) (root below : Location) : Prop where
  atRoot : store.canonical rootPath = some (pathOf root)
  atSource : store.canonical source = some (pathOf (below ++ root))
  inner : root ≠ []
  strict : below ≠ []
  named : ∀ name ∈ below, name ≠ ""

theorem canonical_pause (store : Store) (elapsed : Nat) (path : Path) :
    (store.pause elapsed).canonical path = store.canonical path := by
  rw [Store.canonical, Store.reach_pause, Store.canonical]

theorem run_canonicalOrSame (store : Store) (path : Path) :
    (Program.canonicalOrSame path).run store =
      ((store.canonical path).getD path, store.pause 1) := by
  have answered : store.answer (.canonical path) = (store.canonical path, store.pause 1) := by
    rw [Store.answer, Store.answerNow, canonical_pause]
  rw [Program.canonicalOrSame, Program.run_bind]
  change ((store.answer (.canonical path)).1.getD path, (store.answer (.canonical path)).2) = _
  rw [answered]

/-- The document of a source is named by the place of the source below the root. -/
theorem run_documentFor {store : Store} {rootPath source : Path}
    (lies : LiesBelow store rootPath source root below) (output : Path) (extension : String) :
    ∃ directory : Path, ((documentFor source rootPath output extension).run store).1 =
      directory.join (.ofList ((relativeText below).flatMap flattened ++
        '.' :: flattenSeparators extension.toList)) := by
  refine ⟨(store.canonical output).getD output, ?_⟩
  rw [← documentPath_eq lies.inner lies.strict]
  simp only [documentFor, Program.run_bind, Program.run_pure, run_canonicalOrSame, canonical_pause,
    lies.atRoot, lies.atSource, Option.getD_some]

/-- Different paths below a directory differ in what is below it. -/
theorem relativeText_ne {belowToo : Location} (inner : root ≠ []) (strict : below ≠ [])
    (strictToo : belowToo ≠ []) (differ : pathOf (below ++ root) ≠ pathOf (belowToo ++ root)) :
    relativeText below ≠ relativeText belowToo := by
  intro same
  have texts : (pathOf (below ++ root)).text.toList = (pathOf (belowToo ++ root)).text.toList := by
    rw [toList_pathOf_append inner strict, toList_pathOf_append inner strictToo, same]
  exact differ (congrArg Path.mk (String.toList_injective texts))

/-- In any two runs, the documents of two sources below one root lead apart, and so do their line
hashes, unless the paths of the sources below the root can be mistaken for each other. Where they
can, the two documents have the same name. -/
theorem documents_leadApart {belowToo : Location} {store storeToo : Store}
    {rootPath rootPathToo source sourceToo : Path}
    (lies : LiesBelow store rootPath source root below)
    (liesToo : LiesBelow storeToo rootPathToo sourceToo root belowToo)
    (differ : pathOf (below ++ root) ≠ pathOf (belowToo ++ root))
    (output outputToo : Path) (extension directory directoryToo : String) :
    let document := ((documentFor source rootPath output extension).run store).1
    let documentToo := ((documentFor sourceToo rootPathToo outputToo extension).run storeToo).1
    (¬ AreConfusable (relativeText below) (relativeText belowToo) →
      document.LeadsApart documentToo ∧
        (hashesPath document directory).LeadsApart (hashesPath documentToo directoryToo)) ∧
      (AreConfusable (relativeText below) (relativeText belowToo) →
        document.lastName? = documentToo.lastName?) := by
  intro document documentToo
  obtain ⟨folder, name⟩ := run_documentFor lies output extension
  obtain ⟨folderToo, nameToo⟩ := run_documentFor liesToo outputToo extension
  have whole := slash_not_mem_flattenSeparators extension.toList
  have dotted := List.not_mem_cons_of_ne_of_not_mem (by decide : '/' ≠ '.') whole
  obtain ⟨ending, hashes⟩ := exists_hashes_ending _ whole
  rw [show document = _ from name, show documentToo = _ from nameToo,
    lastName?_join_flatMap _ _ dotted, lastName?_join_flatMap _ _ dotted]
  refine ⟨fun distinct => ?_, fun confusable => by rw [confusable.flatMap_eq]⟩
  have apart := relativeText_ne lies.inner lies.strict liesToo.strict differ
  have named (ending : List Char) : (relativeText below).flatMap flattened ++ ending ≠
      (relativeText belowToo).flatMap flattened ++ ending := fun alike =>
    (eq_or_areConfusable (List.append_cancel_right alike)).elim apart distinct
  constructor <;> apply Path.leadsApart_of_lastName
  · rw [lastName?_join_flatMap _ _ dotted, lastName?_join_flatMap _ _ dotted]
    exact fun alike => named _ (Option.some.inj alike)
  · rw [hashes _ _ _ (relativeText_ne_nil lies.strict lies.named),
      hashes _ _ _ (relativeText_ne_nil liesToo.strict liesToo.named)]
    exact fun alike => named _ (Option.some.inj alike)

/-- A directory with a source, a second one whose name spells out the path of the first, and a
third one beside them. Two more sources stand beside the directory. -/
def sourcesStore : Store where
  entries :=
    [(["src"], .directory), (["a", "src"], .directory), (["B.java", "a", "src"], .file 0),
      (["a_sB.java", "src"], .file 1), (["B.java", "src"], .file 2), (["A.java"], .file 3),
      (["B.java"], .file 4)]

theorem liesBelow_inner :
    LiesBelow sourcesStore ⟨"/src"⟩ ⟨"/src/a/B.java"⟩ ["src"] ["B.java", "a"] :=
  ⟨by decide +kernel, by decide +kernel, by decide, by decide, by decide⟩

/-- Two sources of the same name in different directories have documents and line hashes of their
own. -/
theorem sourcesStore_documents_leadApart :
    let document := ((documentFor ⟨"/src/a/B.java"⟩ ⟨"/src"⟩ ⟨"/out"⟩ "xmi").run sourcesStore).1
    let documentToo := ((documentFor ⟨"/src/B.java"⟩ ⟨"/src"⟩ ⟨"/out"⟩ "xmi").run sourcesStore).1
    document.LeadsApart documentToo ∧
      (hashesPath document "dups").LeadsApart (hashesPath documentToo "dups") := by
  have lies : LiesBelow sourcesStore ⟨"/src"⟩ ⟨"/src/B.java"⟩ ["src"] ["B.java"] :=
    ⟨by decide +kernel, by decide +kernel, by decide, by decide, by decide⟩
  have differ : pathOf (["B.java", "a"] ++ ["src"]) ≠ pathOf (["B.java"] ++ ["src"]) := by
    decide +kernel
  have distinct : ¬ AreConfusable (relativeText ["B.java", "a"]) (relativeText ["B.java"]) :=
    fun confusable => absurd confusable.flatMap_eq (by decide +kernel)
  exact (documents_leadApart liesBelow_inner lies differ ⟨"/out"⟩ ⟨"/out"⟩ "xmi" "dups" "dups").1
    distinct

/-- A file name that spells out a directory and a separator shares its document with the file in
the directory. Below the root of all files, whose path ends with a separator already, the first
letter of a name is lost, and so sources that differ in nothing else share a document. -/
theorem sourcesStore_documents_meet :
    (LiesBelow sourcesStore ⟨"/src"⟩ ⟨"/src/a/B.java"⟩ ["src"] ["B.java", "a"] ∧
      LiesBelow sourcesStore ⟨"/src"⟩ ⟨"/src/a_sB.java"⟩ ["src"] ["a_sB.java"] ∧
      pathOf (["B.java", "a"] ++ ["src"]) ≠ pathOf (["a_sB.java"] ++ ["src"]) ∧
      ((documentFor ⟨"/src/a/B.java"⟩ ⟨"/src"⟩ ⟨"/out"⟩ "xmi").run sourcesStore).1 =
        ((documentFor ⟨"/src/a_sB.java"⟩ ⟨"/src"⟩ ⟨"/out"⟩ "xmi").run sourcesStore).1) ∧
    sourcesStore.canonical ⟨"/"⟩ = some (pathOf []) ∧
      sourcesStore.canonical ⟨"/A.java"⟩ = some (pathOf ["A.java"]) ∧
      sourcesStore.canonical ⟨"/B.java"⟩ = some (pathOf ["B.java"]) ∧
      ¬ AreConfusable (relativeText ["A.java"]) (relativeText ["B.java"]) ∧
      ((documentFor ⟨"/A.java"⟩ ⟨"/"⟩ ⟨"/out"⟩ "xmi").run sourcesStore).1 =
        ((documentFor ⟨"/B.java"⟩ ⟨"/"⟩ ⟨"/out"⟩ "xmi").run sourcesStore).1 :=
  ⟨⟨liesBelow_inner,
    ⟨by decide +kernel, by decide +kernel, by decide, by decide, by decide⟩,
    by decide +kernel, by decide +kernel⟩,
    by decide +kernel, by decide +kernel, by decide +kernel,
    fun confusable => absurd confusable.flatMap_eq (by decide +kernel), by decide +kernel⟩

end Interchange

end JavaStructure
