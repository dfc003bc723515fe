/-
# Text that is put together and cut again

Lines that are written one after another, each with a line feed behind it, are the lines
that are read from the result, but for a carriage return at the end of one. Numerals are
read back to the number they were written for, and words and blanks at either end of a text
are taken away again.
-/

import JavaStructure.Text.Cut
import JavaStructure.Text.Decimal

namespace JavaStructure.Text

/-- No piece of a text that is cut at a mark holds the mark. -/
theorem not_mem_of_mem_splitOn {mark : Char} {text piece : List Char}
    (inside : piece ∈ text.splitOn mark) : mark ∉ piece := by
  induction text generalizing piece with
  | nil =>
      obtain rfl : piece = [] := by simpa using inside
      exact List.not_mem_nil
  | cons c rest ih =>
      rw [List.splitOn_cons_eq_if_modifyHead] at inside
      split at inside
      · rcases List.mem_cons.mp inside with rfl | later
        · exact List.not_mem_nil
        · exact ih later
      · next differs =>
          cases cut : rest.splitOn mark with
          | nil => exact absurd cut (List.splitOn_ne_nil _ _)
          | cons head tail =>
              rw [cut] at inside ih
              rcases List.mem_cons.mp inside with rfl | later
              · rw [List.mem_cons, not_or]
                exact ⟨fun same => differs (by simp [same]), ih List.mem_cons_self⟩
              · exact ih (List.mem_cons_of_mem _ later)

/-- Pieces with a mark behind each are cut apart again. -/
theorem splitOn_flatMap {mark : Char} {pieces : List (List Char)}
    (unmarked : ∀ piece ∈ pieces, mark ∉ piece) (rest : List Char) :
    (pieces.flatMap (· ++ [mark]) ++ rest).splitOn mark = pieces ++ rest.splitOn mark := by
  induction pieces with
  | nil => rfl
  | cons piece more ih =>
      obtain ⟨first, others⟩ := List.forall_mem_cons.mp unmarked
      calc ((piece :: more).flatMap (· ++ [mark]) ++ rest).splitOn mark
        _ = (piece ++ mark :: (more.flatMap (· ++ [mark]) ++ rest)).splitOn mark := by
          rw [List.flatMap_cons, List.append_assoc, List.append_assoc, List.singleton_append]
        _ = piece :: (more.flatMap (· ++ [mark]) ++ rest).splitOn mark :=
          List.splitOn_append_cons_self_of_not_mem first _
        _ = piece :: (more ++ rest.splitOn mark) := by rw [ih others]

theorem dropReturn_sublist (line : List Char) : (dropReturn line).Sublist line := by
  rw [dropReturn]
  split
  · next rest reversed =>
      have whole := congrArg List.reverse reversed
      rw [List.reverse_reverse, List.reverse_cons] at whole
      rw [whole]
      exact List.sublist_append_left _ _
  · exact List.Sublist.refl line

/-- A line that does not end with a carriage return is left as it is. -/
theorem dropReturn_of_getLast {line : List Char} (ending : line.getLast? ≠ some '\r') :
    dropReturn line = line := by
  rw [dropReturn]
  split
  · next rest reversed =>
      rw [List.getLast?_eq_head?_reverse, reversed] at ending
      exact absurd rfl ending
  · rfl

/-- No line holds a line feed. -/
theorem not_mem_of_mem_lines {text line : List Char} (inside : line ∈ lines text) :
    '\n' ∉ line := by
  rw [lines] at inside
  split at inside
  · cases inside
  · next last ended reversed =>
      have pieces (piece : List Char) (found : piece ∈ last :: ended) : '\n' ∉ piece := by
        have member : piece ∈ text.splitOn '\n' := by
          rw [← List.mem_reverse, reversed]
          exact found
        exact not_mem_of_mem_splitOn member
      rcases List.mem_append.mp inside with early | final
      · obtain ⟨piece, found, rfl⟩ := List.mem_map.mp (List.mem_reverse.mp early)
        exact fun feed =>
          pieces piece (List.mem_cons_of_mem _ found) ((dropReturn_sublist piece).subset feed)
      · split at final
        · cases final
        · rw [List.mem_singleton.mp final]
          exact pieces last List.mem_cons_self

/-- Lines that were written with a line feed behind each are read again, each without a
carriage return that it ended with. -/
theorem lines_flatMap {list : List (List Char)} (unbroken : ∀ line ∈ list, '\n' ∉ line) :
    lines (list.flatMap (· ++ ['\n'])) = list.map dropReturn := by
  have cut := splitOn_flatMap unbroken []
  rw [List.append_nil, List.splitOn_nil] at cut
  rw [lines, cut]
  simp

theorem cutFirst_append {mark : Char} {front : List Char} (unmarked : mark ∉ front)
    (back : List Char) : cutFirst mark (front ++ mark :: back) = some (front, back) := by
  induction front with
  | nil => simp [cutFirst]
  | cons c rest ih =>
      rw [List.mem_cons, not_or] at unmarked
      obtain ⟨differs, later⟩ := unmarked
      rw [List.cons_append, cutFirst, if_neg (Ne.symm differs), ih later]
      rfl

/-- What stands before the first mark holds none. -/
theorem not_mem_of_cutFirst {mark : Char} {text before after : List Char}
    (cut : cutFirst mark text = some (before, after)) : mark ∉ before := by
  induction text generalizing before with
  | nil => cases cut
  | cons c rest ih =>
      rw [cutFirst] at cut
      split at cut
      · cases cut
        exact List.not_mem_nil
      · next differs =>
          obtain ⟨⟨front, back⟩, later, same⟩ := Option.map_eq_some_iff.mp cut
          cases same
          rw [List.mem_cons, not_or]
          exact ⟨Ne.symm differs, ih later⟩

/-- A text without the mark is not cut. -/
theorem cutLast_of_not_mem {mark : Char} {text : List Char} (unmarked : mark ∉ text) :
    cutLast mark text = none := by
  induction text with
  | nil => rfl
  | cons c rest ih =>
      rw [List.mem_cons, not_or] at unmarked
      rw [cutLast, ih unmarked.2]
      exact if_neg (Ne.symm unmarked.1)

/-- A text is cut at the mark behind which no other stands. -/
theorem cutLast_append {mark : Char} (front : List Char) {back : List Char}
    (unmarked : mark ∉ back) : cutLast mark (front ++ mark :: back) = some (front, back) := by
  have absent := cutLast_of_not_mem unmarked
  induction front with
  | nil => simp [cutLast, absent]
  | cons c rest ih => rw [List.cons_append, cutLast, ih]

/-- A number that was read for a machine word fits it. -/
theorem lt_of_word64? {text : List Char} {number : Nat} (read : word64? text = some number) :
    number < Nat.pow 2 64 := by
  rw [word64?] at read
  unfold numeralBelow? at read
  simpa using (Option.filter_eq_some_iff.mp read).2

theorem isBlank_of_isDigit {c : Char} (digit : c.isDigit = true) : isBlank c = false := by
  simp only [Char.isDigit, Bool.and_eq_true, decide_eq_true_eq] at digit
  have low : 48 ≤ c.toNat := UInt32.le_iff_toNat_le.mp digit.1
  have high : c.toNat ≤ 57 := UInt32.le_iff_toNat_le.mp digit.2
  simp only [isBlank, Bool.or_eq_false_iff, Bool.and_eq_false_iff, decide_eq_false_iff_not,
    beq_eq_false_iff_ne]
  omega

theorem trim_of_plain {text : List Char} (plain : ∀ c ∈ text, isBlank c = false) :
    trim text = text := by
  have kept {list : List Char} (plain : ∀ c ∈ list, isBlank c = false) :
      list.dropWhile isBlank = list := by
    cases list with
    | nil => rfl
    | cons c rest => simp [plain c List.mem_cons_self]
  rw [trim, trimStart, kept plain, trimEnd, dropEndWhile,
    kept fun c inside => plain c (List.mem_reverse.mp inside), List.reverse_reverse]

/-- A number that fits a machine word is read back from its numeral. -/
theorem word64?_toDigits {number : Nat} (small : number < Nat.pow 2 64) :
    word64? (trim (Nat.toDigits 10 number)) = some number := by
  have digits (c : Char) (inside : c ∈ Nat.toDigits 10 number) : c.isDigit = true :=
    Nat.isDigit_of_mem_toDigits (by decide) (by decide) inside
  have unsigned (rest : List Char) (plus : Nat.toDigits 10 number = '+' :: rest) : False :=
    absurd (digits '+' (by simp [plus])) (by decide)
  rw [trim_of_plain fun c inside => isBlank_of_isDigit (digits c inside), word64?,
    numeralBelow?.eq_2 _ _ unsigned, digitsValue?_toDigits, Option.filter_some]
  simpa using small

/-- Pieces that are joined by a mark: the mark stands before each but the first. -/
theorem intercalate_cons (mark : Char) (first : List Char) (rest : List (List Char)) :
    [mark].intercalate (first :: rest) = first ++ rest.flatMap (mark :: ·) := by
  induction rest generalizing first with
  | nil => simp
  | cons second rest ih =>
      have later := ih second
      rw [List.intercalate] at later
      rw [List.intercalate, List.intersperse_cons_cons, List.flatten_cons, List.flatten_cons, later]
      rfl

theorem replaceChar_append (mark : Char) (word front back : List Char) :
    replaceChar mark word (front ++ back) =
      replaceChar mark word front ++ replaceChar mark word back :=
  List.flatMap_append

theorem replaceChar_cons_self (mark : Char) (word rest : List Char) :
    replaceChar mark word (mark :: rest) = word ++ replaceChar mark word rest := by
  rw [replaceChar, List.flatMap_cons, if_pos rfl, replaceChar]

/-- Nothing is replaced where the mark is missing. -/
theorem replaceChar_of_not_mem {mark : Char} {word text : List Char} (unmarked : mark ∉ text) :
    replaceChar mark word text = text := by
  induction text with
  | nil => rfl
  | cons c rest ih =>
      rw [List.mem_cons, not_or] at unmarked
      rw [replaceChar, List.flatMap_cons, if_neg (Ne.symm unmarked.1)]
      exact congrArg (c :: ·) (ih unmarked.2)

/-- A word is dropped from the text that it begins. -/
theorem dropWord?_append (word rest : List Char) : dropWord? word (word ++ rest) = some rest := by
  induction word with
  | nil => rfl
  | cons c word ih => rw [List.cons_append, dropWord?, if_pos rfl, ih]

theorem eq_append_of_dropWord? {word text rest : List Char}
    (dropped : dropWord? word text = some rest) : text = word ++ rest := by
  induction word generalizing text with
  | nil => exact Option.some.inj dropped
  | cons first word ih =>
      cases text with
      | nil => cases dropped
      | cons c text =>
          rw [dropWord?] at dropped
          split at dropped
          · next same => rw [same, ih dropped, List.cons_append]
          · cases dropped

/-- Blanks in front are dropped up to the first character that is none. -/
theorem trimStart_append {blanks : List Char} (blank : ∀ c ∈ blanks, isBlank c = true) {c : Char}
    (plain : isBlank c = false) (rest : List Char) :
    trimStart (blanks ++ c :: rest) = c :: rest := by
  rw [trimStart, List.dropWhile_append_of_pos blank,
    List.dropWhile_cons_of_neg (by rw [plain]; exact Bool.false_ne_true)]

theorem trimStart_cons {c : Char} (plain : isBlank c = false) (rest : List Char) :
    trimStart (c :: rest) = c :: rest :=
  trimStart_append (fun _ inside => absurd inside List.not_mem_nil) plain rest

theorem dropEndWhile_append {test : Char → Bool} {back : List Char}
    (all : ∀ c ∈ back, test c = true) (front : List Char) :
    dropEndWhile test (front ++ back) = dropEndWhile test front := by
  rw [dropEndWhile, List.reverse_append,
    List.dropWhile_append_of_pos fun c inside => all c (List.mem_reverse.mp inside), dropEndWhile]

/-- Nothing is dropped behind a character that fails the test. -/
theorem dropEndWhile_concat {test : Char → Bool} (front : List Char) {c : Char}
    (fails : test c = false) : dropEndWhile test (front ++ [c]) = front ++ [c] := by
  rw [dropEndWhile_append_singleton, fails]
  exact if_neg Bool.false_ne_true

/-- Nothing in front of a character that fails the test is dropped. -/
theorem dropEndWhile_append_cons {test : Char → Bool} (front : List Char) {c : Char}
    (fails : test c = false) (back : List Char) :
    dropEndWhile test (front ++ c :: back) = front ++ c :: dropEndWhile test back := by
  have dropped (reversed : List Char) :
      (reversed ++ c :: front.reverse).dropWhile test =
        reversed.dropWhile test ++ c :: front.reverse := by
    induction reversed with
    | nil => exact List.dropWhile_cons_of_neg (by rw [fails]; exact Bool.false_ne_true)
    | cons last rest ih =>
        rw [List.cons_append, List.dropWhile_cons, List.dropWhile_cons]
        split
        · exact ih
        · rfl
  calc dropEndWhile test (front ++ c :: back)
    _ = ((back.reverse ++ c :: front.reverse).dropWhile test).reverse := by simp [dropEndWhile]
    _ = (back.reverse.dropWhile test ++ c :: front.reverse).reverse := by rw [dropped]
    _ = front ++ c :: dropEndWhile test back := by simp [dropEndWhile]

theorem dropEndWhile_of_forall {test : Char → Bool} {text : List Char}
    (kept : ∀ c ∈ text, test c = false) : dropEndWhile test text = text := by
  rcases List.eq_nil_or_concat text with rfl | ⟨front, last, rfl⟩
  · rfl
  · rw [List.concat_eq_append] at kept ⊢
    exact dropEndWhile_concat front (kept last (List.mem_append_right _ List.mem_cons_self))

theorem dropWordUpTo_of_head {first : Char} {text : List Char} (head : text.head? ≠ some first)
    (word : List Char) (bound : Nat) : dropWordUpTo (first :: word) bound text = text := by
  cases bound with
  | zero => rfl
  | succ bound =>
      cases text with
      | nil => rfl
      | cons c rest =>
          have other : first ≠ c := fun same => head (by rw [same]; rfl)
          rw [dropWordUpTo, dropWord?, if_neg other]

/-- No word is dropped at the end of a text that ends with another character. -/
theorem dropEndWords_of_getLast {mark : Char} {text : List Char}
    (ending : text.getLast? ≠ some mark) (word : List Char) :
    dropEndWords (word ++ [mark]) text = text := by
  have head : text.reverse.head? ≠ some mark := by rwa [List.head?_reverse]
  calc dropEndWords (word ++ [mark]) text
    _ = (dropWords (mark :: word.reverse) text.reverse).reverse := by
      rw [dropEndWords, List.reverse_append, List.reverse_singleton, List.singleton_append]
    _ = text.reverse.reverse := by rw [dropWords, dropWordUpTo_of_head head]
    _ = text := List.reverse_reverse text

end JavaStructure.Text
