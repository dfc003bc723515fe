/-
# Imports as they are written

A declaration may hold blanks behind its keywords, around the dots of its name, and before the
semicolon. Those behind `import` and before the semicolon are always dropped. The word `static`
is only told by a space behind it, and no blank around a dot is dropped: such blanks, and the word
with them, become part of the directory and the file that are read.
-/

import Mathlib.Data.List.Basic
import JavaStructure.Dependencies.Import
import JavaStructure.Proofs.Text.Lines

namespace JavaStructure.Dependencies

open Text

/-- A segment of an imported name: a word without blanks and without the marks around it. -/
structure IsSegment (word : List Char) : Prop where
  nonempty : word ≠ []
  unblank : ∀ c ∈ word, isBlank c = false
  unmarked : ∀ c ∈ word, c ≠ '.' ∧ c ≠ ';' ∧ c ≠ '/'

instance (word : List Char) : Decidable (IsSegment word) :=
  decidable_of_iff
    (word ≠ [] ∧ word.all (fun c => isBlank c = false) = true ∧
      word.all (fun c => c ≠ '.' ∧ c ≠ ';' ∧ c ≠ '/') = true)
    (by
      simp only [List.all_eq_true, decide_eq_true_eq]
      exact ⟨fun ⟨nonempty, unblank, unmarked⟩ => ⟨nonempty, unblank, unmarked⟩,
        fun segment => ⟨segment.nonempty, segment.unblank, segment.unmarked⟩⟩)

/-- A further segment of a name, with the blanks before and behind its dot. -/
structure DottedSegment where
  before : List Char
  behind : List Char
  word : List Char

/-- The text from the dot's blanks on, with some mark for the dot. -/
def DottedSegment.marked (mark : Char) (segment : DottedSegment) : List Char :=
  segment.before ++ mark :: (segment.behind ++ segment.word)

/-- An import declaration as it is written, of a name with at least two segments. -/
structure ImportText where
  /-- The blanks behind the keyword. -/
  gap : List Char
  /-- The blanks behind the word `static`, if that is there. -/
  static? : Option (List Char)
  first : List Char
  middle : List DottedSegment
  last : DottedSegment
  /-- The blanks before the semicolon. -/
  ending : List Char

namespace ImportText

variable {declaration : ImportText}

/-- The word `static` and the blanks behind it. -/
def staticWord : Option (List Char) → List Char
  | none => []
  | some gap => "static".toList ++ gap

/-- The name as it is written. -/
def name (declaration : ImportText) : List Char :=
  declaration.first ++ declaration.middle.flatMap (·.marked '.') ++ declaration.last.marked '.'

/-- The declaration behind its first blanks. -/
def body (declaration : ImportText) : List Char :=
  staticWord declaration.static? ++ (declaration.name ++ (declaration.ending ++ [';']))

def text (declaration : ImportText) : String :=
  .ofList ("import".toList ++ (declaration.gap ++ declaration.body))

/-- What Java allows: blanks where blanks are, at least one behind a keyword, and segments that
can be told apart from what surrounds them. -/
structure IsLegal (declaration : ImportText) : Prop where
  gap : declaration.gap ≠ [] ∧ ∀ c ∈ declaration.gap, isBlank c = true
  static : ∀ gap ∈ declaration.static?, gap ≠ [] ∧ ∀ c ∈ gap, isBlank c = true
  first : IsSegment declaration.first ∧ declaration.first ≠ "static".toList
  dots : ∀ segment ∈ declaration.middle ++ [declaration.last],
    ∀ c ∈ segment.before ++ segment.behind, isBlank c = true
  words : ∀ segment ∈ declaration.middle ++ [declaration.last], IsSegment segment.word
  ending : ∀ c ∈ declaration.ending, isBlank c = true

instance (declaration : ImportText) : Decidable declaration.IsLegal :=
  decidable_of_iff
    ((declaration.gap ≠ [] ∧ declaration.gap.all isBlank = true) ∧
      (∀ gap ∈ declaration.static?, gap ≠ [] ∧ gap.all isBlank = true) ∧
      (IsSegment declaration.first ∧ declaration.first ≠ "static".toList) ∧
      (∀ segment ∈ declaration.middle ++ [declaration.last],
        (segment.before ++ segment.behind).all isBlank = true) ∧
      (∀ segment ∈ declaration.middle ++ [declaration.last], IsSegment segment.word) ∧
      declaration.ending.all isBlank = true)
    (by
      simp only [List.all_eq_true]
      exact ⟨fun ⟨gap, static, first, dots, words, ending⟩ =>
          ⟨gap, static, first, dots, words, ending⟩,
        fun legal => ⟨legal.gap, legal.static, legal.first, legal.dots, legal.words,
          legal.ending⟩⟩)

/-- The directory and the leaf that a declaration names: all segments but the last, joined by
slashes, with a slash at the end, and the last segment. -/
def target (declaration : ImportText) : String × String :=
  (.ofList (['/'].intercalate (declaration.first :: declaration.middle.map (·.word)) ++ ['/']),
    .ofList declaration.last.word)

/-- The blanks behind the word `static` if it is not told by a space. -/
def keptGap? (declaration : ImportText) : Option (List Char) :=
  declaration.static?.filter fun gap => gap.head? ≠ some ' '

/-- The blanks that are not dropped. -/
def keptBlanks (declaration : ImportText) : List Char :=
  declaration.keptGap?.getD [] ++
    (declaration.middle ++ [declaration.last]).flatMap fun segment =>
      segment.before ++ segment.behind

/-- The directory that is read, without the slash at its end. -/
def readDirectory (declaration : ImportText) : List Char :=
  staticWord declaration.keptGap? ++ (declaration.first ++
    (declaration.middle.flatMap (·.marked '/') ++ declaration.last.before))

/-- The leaf that is read. -/
def readLeaf (declaration : ImportText) : List Char :=
  declaration.last.behind ++ declaration.last.word

/-- The directory and the leaf that are read. -/
def readTarget (declaration : ImportText) : String × String :=
  (.ofList (declaration.readDirectory ++ ['/']), .ofList declaration.readLeaf)

end ImportText

/-- A segment ends with a character of its own. -/
theorem IsSegment.exists_concat {word : List Char} (segment : IsSegment word) :
    ∃ front c, word = front ++ [c] ∧ isBlank c = false ∧ c ≠ ';' := by
  rcases List.eq_nil_or_concat word with rfl | ⟨front, c, rfl⟩
  · exact absurd rfl segment.nonempty
  · rw [List.concat_eq_append] at segment ⊢
    have inside : c ∈ front ++ [c] := List.mem_append_right _ List.mem_cons_self
    exact ⟨front, c, rfl, segment.unblank c inside, (segment.unmarked c inside).2.1⟩

theorem IsSegment.dot_not_mem {word : List Char} (segment : IsSegment word) : '.' ∉ word :=
  fun inside => (segment.unmarked '.' inside).1 rfl

theorem IsSegment.not_mem_of_blank {word : List Char} {c : Char}
    (segment : IsSegment word) (blank : isBlank c = true) : c ∉ word := fun inside =>
  Bool.false_ne_true ((segment.unblank c inside).symm.trans blank)

/-- No mark is blank. -/
theorem not_mem_of_blank {mark : Char} {blanks : List Char} (plain : isBlank mark = false)
    (blank : ∀ c ∈ blanks, isBlank c = true) : mark ∉ blanks := fun inside =>
  Bool.false_ne_true (plain.symm.trans (blank mark inside))

namespace ImportText

variable {declaration : ImportText}

theorem IsLegal.last (legal : declaration.IsLegal) : IsSegment declaration.last.word :=
  legal.words _ (List.mem_append_right _ List.mem_cons_self)

/-- The name begins and ends with characters of its segments. -/
theorem IsLegal.exists_cons_name (legal : declaration.IsLegal) :
    ∃ c rest, declaration.name = c :: rest ∧ isBlank c = false := by
  rw [name]
  cases first : declaration.first with
  | nil => exact absurd first legal.first.1.nonempty
  | cons c rest =>
      exact ⟨c, _, rfl, legal.first.1.unblank c (by rw [first]; exact List.mem_cons_self)⟩

theorem IsLegal.exists_name_concat (legal : declaration.IsLegal) :
    ∃ front c, declaration.name = front ++ [c] ∧ isBlank c = false ∧ c ≠ ';' := by
  obtain ⟨front, c, word, plain, other⟩ := legal.last.exists_concat
  refine ⟨declaration.first ++ declaration.middle.flatMap (·.marked '.') ++
    declaration.last.before ++ '.' :: (declaration.last.behind ++ front), c, ?_, plain, other⟩
  rw [name, DottedSegment.marked, word]
  simp

/-- The word `static` is not found where a name begins. -/
theorem IsLegal.dropWord?_name (legal : declaration.IsLegal) (rest : List Char) :
    dropWord? "static ".toList (declaration.name ++ rest) = none := by
  cases dropped : dropWord? "static ".toList (declaration.name ++ rest) with
  | none => rfl
  | some later =>
      refine absurd ?_ legal.first.2
      -- Both texts have a first word, up to a blank or a dot.
      have whole := congrArg (List.takeWhile fun c => !isBlank c && c != '.')
        (eq_append_of_dropWord? dropped)
      have segment : ∀ c ∈ declaration.first, (!isBlank c && c != '.') = true := fun c inside => by
        simp [legal.first.1.unblank c inside, (legal.first.1.unmarked c inside).1]
      have dotted (further : DottedSegment)
          (blank : ∀ c ∈ further.before ++ further.behind, isBlank c = true) (more : List Char) :
          ((further.marked '.') ++ more).takeWhile (fun c => !isBlank c && c != '.') = [] := by
        rw [DottedSegment.marked]
        cases before : further.before with
        | nil => simp
        | cons c others =>
            have blank := blank c (by simp [before])
            simp [blank]
      have ends : (declaration.middle.flatMap (·.marked '.') ++ (declaration.last.marked '.' ++
          rest)).takeWhile (fun c => !isBlank c && c != '.') = [] := by
        cases middle : declaration.middle with
        | nil => exact dotted _ (legal.dots _ (by simp)) _
        | cons further others =>
            rw [List.flatMap_cons, List.append_assoc]
            exact dotted _ (legal.dots _ (by simp [middle])) _
      rw [name, List.append_assoc, List.append_assoc, List.takeWhile_append_of_pos segment, ends,
        List.append_nil] at whole
      rw [whole]
      rfl

/-- The word `static` is told by a space behind it, or else it is kept. -/
theorem IsLegal.dropWord?_static (legal : declaration.IsLegal) (rest : List Char) :
    (dropWord? "static ".toList (staticWord declaration.static? ++ (declaration.name ++ rest)) =
        none ∧ declaration.keptGap? = declaration.static?) ∨
      ∃ blanks, dropWord? "static ".toList (staticWord declaration.static? ++
          (declaration.name ++ rest)) = some (blanks ++ (declaration.name ++ rest)) ∧
        (∀ c ∈ blanks, isBlank c = true) ∧ declaration.keptGap? = none := by
  rw [keptGap?]
  cases written : declaration.static? with
  | none => exact .inl ⟨legal.dropWord?_name rest, rfl⟩
  | some gap =>
      obtain ⟨nonempty, blank⟩ := legal.static gap written
      cases gap with
      | nil => exact absurd rfl nonempty
      | cons c others =>
          by_cases space : c = ' '
          · subst space
            exact .inr ⟨others, dropWord?_append "static ".toList _,
              fun c inside => blank c (List.mem_cons_of_mem _ inside), rfl⟩
          · refine .inl ⟨?_, ?_⟩
            · simp [staticWord, dropWord?, Ne.symm space]
            · simp [space]

/-- A semicolon and the blanks before it are dropped behind a text that begins and ends with no
blank. -/
theorem trim_before_semicolon {body front later ending : List Char} {start c : Char}
    (begins : body = start :: later) (ends : body = front ++ [c])
    (startPlain : isBlank start = false) (endPlain : isBlank c = false)
    (other : c ≠ ';') (blank : ∀ c ∈ ending, isBlank c = true) :
    trim (dropEndWhile (fun c => c == ';') (trimEnd (body ++ (ending ++ [';'])))) = body := by
  have unended : trimEnd (body ++ (ending ++ [';'])) = body ++ ending ++ [';'] := by
    rw [← List.append_assoc]
    exact dropEndWhile_concat _ (by decide)
  have unmarked : dropEndWhile (fun c => c == ';') (body ++ ending ++ [';']) = body ++ ending := by
    rw [dropEndWhile_append (by simp)]
    rcases List.eq_nil_or_concat ending with rfl | ⟨blanks, last, rfl⟩
    · rw [List.append_nil, ends]
      exact dropEndWhile_concat _ (by simpa using other)
    · rw [List.concat_eq_append, ← List.append_assoc]
      refine dropEndWhile_concat _ ?_
      rw [beq_eq_false_iff_ne]
      rintro rfl
      exact absurd (blank ';' (by simp)) (by decide)
  have startsWith : trimStart (body ++ ending) = body ++ ending := by
    rw [begins, List.cons_append]
    exact trimStart_cons startPlain _
  rw [unended, unmarked]
  calc trim (body ++ ending)
    _ = dropEndWhile isBlank body := by rw [trim, startsWith, trimEnd, dropEndWhile_append blank]
    _ = body := by
      rw [ends]
      exact dropEndWhile_concat _ endPlain

theorem toList_text (declaration : ImportText) :
    declaration.text.toList = "import".toList ++ (declaration.gap ++ declaration.body) :=
  String.toList_ofList

/-- A declaration begins and ends with no blank. -/
theorem trim_text (declaration : ImportText) :
    trim declaration.text.toList = declaration.text.toList := by
  have starts : trimStart declaration.text.toList = declaration.text.toList := by
    rw [toList_text]
    exact trimStart_cons (by decide) _
  have ends : declaration.text.toList = "import".toList ++ (declaration.gap ++
      (staticWord declaration.static? ++ (declaration.name ++ declaration.ending))) ++ [';'] := by
    rw [toList_text, body]
    simp only [List.append_assoc]
  rw [trim, starts, ends, trimEnd]
  exact dropEndWhile_concat _ (by decide)

/-- The name is read with the blanks around its dots, and with the word `static` where that is
not told. -/
theorem IsLegal.importedName_text (legal : declaration.IsLegal) :
    importedName declaration.text.toList =
      staticWord declaration.keptGap? ++ declaration.name := by
  obtain ⟨first, more, begins, plain⟩ := legal.exists_cons_name
  obtain ⟨front, c, ends, plainEnd, other⟩ := legal.exists_name_concat
  have starts (gap? : Option (List Char)) (rest : List Char) : ∃ start later,
      staticWord gap? ++ (declaration.name ++ rest) = start :: later ∧ isBlank start = false := by
    cases gap? with
    | none => exact ⟨first, more ++ rest, by rw [begins]; rfl, plain⟩
    | some gap => exact ⟨'s', _, rfl, by decide⟩
  obtain ⟨start, later, written, plainStart⟩ :=
    starts declaration.static? (declaration.ending ++ [';'])
  obtain ⟨startKept, laterKept, kept, plainKept⟩ := starts declaration.keptGap? []
  rw [List.append_nil] at kept
  have dropped : trim (dropEndWhile (fun c => c == ';') (trimEnd
      (staticWord declaration.keptGap? ++ (declaration.name ++ (declaration.ending ++ [';']))))) =
        staticWord declaration.keptGap? ++ declaration.name := by
    rw [← List.append_assoc]
    have keptEnds : staticWord declaration.keptGap? ++ declaration.name =
        staticWord declaration.keptGap? ++ front ++ [c] := by
      rw [ends, List.append_assoc]
    exact trim_before_semicolon kept keptEnds plainKept plainEnd other legal.ending
  rw [importedName, trim_text, toList_text, dropWord?_append]
  dsimp only
  rw [body, written, trimStart_append legal.gap.2 plainStart, ← written]
  rcases legal.dropWord?_static (declaration.ending ++ [';']) with
    ⟨unread, sameGap⟩ | ⟨blanks, read, blank, noGap⟩
  · rw [unread, ← sameGap]
    exact dropped
  · rw [noGap, staticWord, List.nil_append] at dropped ⊢
    rw [read]
    dsimp only
    rw [begins, List.cons_append, trimStart_append blank plain, ← List.cons_append, ← begins]
    exact dropped

/-- The dot of a segment becomes a slash. -/
theorem replaceChar_marked {segment : DottedSegment}
    (blank : ∀ c ∈ segment.before ++ segment.behind, isBlank c = true)
    (word : IsSegment segment.word) :
    replaceChar '.' ['/'] (segment.marked '.') = segment.marked '/' := by
  have before : '.' ∉ segment.before := not_mem_of_blank (by decide) fun c inside =>
    blank c (List.mem_append_left _ inside)
  have behind : '.' ∉ segment.behind ++ segment.word := by
    rw [List.mem_append, not_or]
    exact ⟨not_mem_of_blank (by decide) fun c inside => blank c (List.mem_append_right _ inside),
      word.dot_not_mem⟩
  rw [DottedSegment.marked, replaceChar_append, replaceChar_of_not_mem before,
    replaceChar_cons_self, replaceChar_of_not_mem behind]
  rfl

theorem keptGap?_blank (legal : declaration.IsLegal) :
    ∀ c ∈ declaration.keptGap?.getD [], isBlank c = true := by
  rw [keptGap?]
  cases written : declaration.static? with
  | none => exact fun c inside => by cases inside
  | some gap =>
      rw [Option.filter_some]
      split
      · exact (legal.static gap written).2
      · exact fun c inside => by cases inside

/-- What is kept of the word `static` holds neither dot nor slash. -/
theorem not_mem_staticWord {mark : Char} (legal : declaration.IsLegal)
    (plain : isBlank mark = false) (other : mark ∉ "static".toList) :
    mark ∉ staticWord declaration.keptGap? := by
  have blank := keptGap?_blank legal
  cases kept : declaration.keptGap? with
  | none => exact List.not_mem_nil
  | some gap =>
      rw [kept] at blank
      rw [staticWord, List.mem_append, not_or]
      exact ⟨other, not_mem_of_blank plain blank⟩

/-- What a declaration says about the file that it imports. -/
theorem IsLegal.importTarget?_text (legal : declaration.IsLegal) :
    importTarget? declaration.text = some declaration.readTarget := by
  have slashed : replaceChar '.' ['/'] (staticWord declaration.keptGap? ++ declaration.name) =
      declaration.readDirectory ++ '/' :: declaration.readLeaf := by
    have middle : replaceChar '.' ['/'] (declaration.middle.flatMap (·.marked '.')) =
        declaration.middle.flatMap (·.marked '/') := by
      rw [replaceChar, List.flatMap_assoc]
      refine List.flatMap_congr fun segment inside => ?_
      exact replaceChar_marked (legal.dots segment (List.mem_append_left _ inside))
        (legal.words segment (List.mem_append_left _ inside))
    have last := replaceChar_marked
      (legal.dots declaration.last (List.mem_append_right _ List.mem_cons_self)) legal.last
    calc replaceChar '.' ['/'] (staticWord declaration.keptGap? ++ declaration.name)
      _ = replaceChar '.' ['/'] (staticWord declaration.keptGap?) ++
          (replaceChar '.' ['/'] declaration.first ++
            replaceChar '.' ['/'] (declaration.middle.flatMap (·.marked '.')) ++
            replaceChar '.' ['/'] (declaration.last.marked '.')) := by
        rw [name, replaceChar_append, replaceChar_append, replaceChar_append]
      _ = staticWord declaration.keptGap? ++ (declaration.first ++
          declaration.middle.flatMap (·.marked '/') ++ declaration.last.marked '/') := by
        rw [middle, last,
          replaceChar_of_not_mem (not_mem_staticWord legal (by decide) (by decide)),
          replaceChar_of_not_mem legal.first.1.dot_not_mem]
      _ = declaration.readDirectory ++ '/' :: declaration.readLeaf := by
        simp [readDirectory, readLeaf, DottedSegment.marked]
  have unmarked : '/' ∉ declaration.readLeaf := by
    rw [readLeaf, List.mem_append, not_or]
    refine ⟨not_mem_of_blank (by decide) fun c inside => ?_,
      fun inside => (legal.last.unmarked '/' inside).2.2 rfl⟩
    exact legal.dots declaration.last (List.mem_append_right _ List.mem_cons_self) c
      (List.mem_append_right _ inside)
  rw [importTarget?, legal.importedName_text, slashed, cutLast_append _ unmarked]
  rfl

section Blanks

variable {c : Char}

theorem mem_staticWord_iff (gap? : Option (List Char)) (blank : isBlank c = true) :
    c ∈ staticWord gap? ↔ c ∈ gap?.getD [] := by
  cases gap? with
  | none => rfl
  | some gap =>
      have plain : "static".toList.all (fun c => isBlank c = false) = true := by decide
      have apart : c ∉ "static".toList := by
        intro inside
        have unblank := of_decide_eq_true (List.all_eq_true.mp plain c inside)
        exact Bool.false_ne_true (unblank.symm.trans blank)
      rw [staticWord, List.mem_append, Option.getD_some]
      exact or_iff_right apart

theorem mem_marked_iff {segment : DottedSegment} (word : IsSegment segment.word)
    (blank : isBlank c = true) :
    c ∈ segment.marked '/' ↔ c ∈ segment.before ++ segment.behind := by
  have other : c ≠ '/' := by
    rintro rfl
    exact absurd blank (by decide)
  simp [DottedSegment.marked, other, word.not_mem_of_blank blank]

/-- The blanks that are read are those that are not dropped. -/
theorem IsLegal.mem_keptBlanks_iff (legal : declaration.IsLegal) (blank : isBlank c = true) :
    c ∈ declaration.keptBlanks ↔ c ∈ declaration.readDirectory ∨ c ∈ declaration.readLeaf := by
  have middle : c ∈ declaration.middle.flatMap (·.marked '/') ↔
      c ∈ declaration.middle.flatMap fun segment => segment.before ++ segment.behind := by
    rw [List.mem_flatMap, List.mem_flatMap]
    refine exists_congr fun segment => and_congr_right fun inside => ?_
    exact mem_marked_iff (legal.words segment (List.mem_append_left _ inside)) blank
  rw [keptBlanks, readDirectory, readLeaf, List.flatMap_append, List.flatMap_singleton]
  simp only [List.mem_append, middle, mem_staticWord_iff _ blank,
    legal.first.1.not_mem_of_blank blank, legal.last.not_mem_of_blank blank, false_or, or_false,
    or_assoc]

theorem IsLegal.keptBlanks_blank (legal : declaration.IsLegal) :
    ∀ c ∈ declaration.keptBlanks, isBlank c = true := by
  intro c inside
  rcases List.mem_append.mp inside with static | dots
  · exact keptGap?_blank legal c static
  · obtain ⟨segment, found, inside⟩ := List.mem_flatMap.mp dots
    exact legal.dots segment found c inside

theorem target_directory (declaration : ImportText) : declaration.target.1.toList =
    declaration.first ++ (declaration.middle.flatMap fun segment => '/' :: segment.word) ++
      ['/'] := by
  rw [target, String.toList_ofList, intercalate_cons, List.flatMap_map]

/-- No segment holds a blank. -/
theorem IsLegal.target_unblank (legal : declaration.IsLegal) (blank : isBlank c = true) :
    c ∉ declaration.target.1.toList ∧ c ∉ declaration.target.2.toList := by
  have other : c ≠ '/' := by
    rintro rfl
    exact absurd blank (by decide)
  have words : ∀ segment ∈ declaration.middle, c ∉ segment.word := fun segment inside =>
    (legal.words segment (List.mem_append_left _ inside)).not_mem_of_blank blank
  constructor
  · rw [target_directory]
    simpa [other, legal.first.1.not_mem_of_blank blank] using words
  · rw [target, String.toList_ofList]
    exact legal.last.not_mem_of_blank blank

theorem mem_readTarget_iff (declaration : ImportText) (other : c ≠ '/') :
    (c ∉ declaration.readTarget.1.toList ∧ c ∉ declaration.readTarget.2.toList ↔
      c ∉ declaration.readDirectory ∧ c ∉ declaration.readLeaf) := by
  simp [readTarget, other]

end Blanks

/-- No semicolon is read. -/
theorem IsLegal.semicolon_not_mem (legal : declaration.IsLegal) :
    ';' ∉ declaration.readTarget.1.toList ∧ ';' ∉ declaration.readTarget.2.toList := by
  have word {word : List Char} (segment : IsSegment word) : ';' ∉ word := fun inside =>
    (segment.unmarked ';' inside).2.1 rfl
  have blanks {segment : DottedSegment}
      (inside : segment ∈ declaration.middle ++ [declaration.last]) :
      ';' ∉ segment.before ++ segment.behind :=
    not_mem_of_blank (by decide) (legal.dots segment inside)
  have middle : ∀ segment ∈ declaration.middle, ';' ∉ segment.marked '/' := by
    intro segment inside
    have plain := blanks (List.mem_append_left [declaration.last] inside)
    have wordPlain := word (legal.words segment (List.mem_append_left _ inside))
    rw [List.mem_append, not_or] at plain
    simp [DottedSegment.marked, plain, wordPlain]
  have last := blanks (List.mem_append_right declaration.middle List.mem_cons_self)
  rw [List.mem_append, not_or] at last
  rw [mem_readTarget_iff declaration (by decide), readDirectory, readLeaf]
  simp only [List.mem_append, not_or, List.mem_flatMap, not_exists, not_and]
  exact ⟨⟨not_mem_staticWord legal (by decide) (by decide), word legal.first.1, middle, last.1⟩,
    last.2, word legal.last⟩

/-- The target is read exactly if all blanks are dropped. -/
theorem IsLegal.importTarget?_eq_target_iff (legal : declaration.IsLegal) :
    importTarget? declaration.text = some declaration.target ↔ declaration.keptBlanks = [] := by
  rw [legal.importTarget?_text, readTarget, Option.some.injEq, Prod.ext_iff, String.ext_iff,
    String.ext_iff, String.toList_ofList, String.toList_ofList]
  constructor
  · rintro ⟨directory, leaf⟩
    refine List.eq_nil_iff_forall_not_mem.mpr fun c inside => ?_
    have blank := legal.keptBlanks_blank c inside
    obtain ⟨unblankDirectory, unblankLeaf⟩ := legal.target_unblank blank
    rw [← directory] at unblankDirectory
    rw [← leaf] at unblankLeaf
    rcases (legal.mem_keptBlanks_iff blank).mp inside with early | late
    · exact unblankDirectory (List.mem_append_left _ early)
    · exact unblankLeaf late
  · intro dropped
    rw [keptBlanks, List.append_eq_nil_iff, List.flatMap_append, List.append_eq_nil_iff,
      List.flatMap_singleton, List.append_eq_nil_iff, List.flatMap_eq_nil_iff] at dropped
    obtain ⟨noGap, middle, before, behind⟩ := dropped
    have unkept : declaration.keptGap? = none := by
      cases kept : declaration.keptGap? with
      | none => rfl
      | some gap =>
          obtain ⟨written, -⟩ := Option.filter_eq_some_iff.mp kept
          rw [kept] at noGap
          exact absurd noGap (legal.static gap written).1
    have tight : declaration.middle.flatMap (·.marked '/') =
        declaration.middle.flatMap fun segment => '/' :: segment.word := by
      refine List.flatMap_congr fun segment inside => ?_
      obtain ⟨before, behind⟩ := List.append_eq_nil_iff.mp (middle segment inside)
      rw [DottedSegment.marked, before, behind]
      rfl
    constructor
    · have read : declaration.readDirectory = declaration.first ++
          declaration.middle.flatMap fun segment => '/' :: segment.word := by
        rw [readDirectory, unkept, tight, before, List.append_nil]
        rfl
      rw [target_directory, read]
    · rw [target, String.toList_ofList, readLeaf, behind, List.nil_append]

end ImportText

end JavaStructure.Dependencies
