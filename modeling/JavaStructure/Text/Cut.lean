/-
# Cutting text

Cutting at the first or the last place where a character stands, removing a
word that is repeated at one end, and splitting a file's text into its lines.
-/

import JavaStructure.Text.Blank

namespace JavaStructure.Text

/-- The two sides of the first `mark`, if there is one. -/
def cutFirst (mark : Char) : List Char → Option (List Char × List Char)
  | [] => none
  | c :: rest =>
      if c = mark then some ([], rest)
      else (cutFirst mark rest).map fun (before, after) => (c :: before, after)

/-- The two sides of the last `mark`, if there is one. -/
def cutLast (mark : Char) : List Char → Option (List Char × List Char)
  | [] => none
  | c :: rest =>
      match cutLast mark rest with
      | some (before, after) => some (c :: before, after)
      | none => if c = mark then some ([], rest) else none

/-- What follows the last `mark`, or the whole text where there is none. -/
def afterLast (mark : Char) (text : List Char) : List Char :=
  match cutLast mark text with
  | some (_, after) => after
  | none => text

/-- The rest of a text that starts with `word`. -/
def dropWord? : List Char → List Char → Option (List Char)
  | [], text => some text
  | _ :: _, [] => none
  | w :: word, c :: text => if w = c then dropWord? word text else none

/-- Drop `word` from the front once, where it stands there. -/
def dropWord (word text : List Char) : List Char :=
  (dropWord? word text).getD text

/-- Drop `word` from the front up to `bound` times. -/
def dropWordUpTo (word : List Char) : Nat → List Char → List Char
  | 0, text => text
  | bound + 1, text =>
      match dropWord? word text with
      | some rest => dropWordUpTo word bound rest
      | none => text

/-- Drop `word` from the front as long as it stands there. A text of `n`
characters holds a non-empty word at most `n` times. -/
def dropWords (word text : List Char) : List Char :=
  dropWordUpTo word text.length text

/-- Drop `word` from the end as long as it stands there. -/
def dropEndWords (word text : List Char) : List Char :=
  (dropWords word.reverse text.reverse).reverse

/-- A line without the carriage return that belongs to its line end. -/
def dropReturn (line : List Char) : List Char :=
  match line.reverse with
  | '\r' :: rest => rest.reverse
  | _ => line

/-- The lines of a text. A line ends with a line feed, or with a carriage
return and a line feed. What follows the last line feed is a line too unless
it is empty, and keeps a carriage return at its end. -/
def lines (text : List Char) : List (List Char) :=
  match (text.splitOn '\n').reverse with
  | [] => []
  | last :: ended =>
      (ended.map dropReturn).reverse ++ if last.isEmpty then [] else [last]

/-- Replace every occurrence of one character by a word. -/
def replaceChar (mark : Char) (word : List Char) (text : List Char) : List Char :=
  text.flatMap fun c => if c = mark then word else [c]

/-- The two sides of the first mark, put together again, are the text. -/
theorem eq_append_of_cutFirst {mark : Char} {text before after : List Char}
    (h : cutFirst mark text = some (before, after)) : text = before ++ mark :: after := by
  induction text generalizing before with
  | nil => simp [cutFirst] at h
  | cons c rest ih =>
      unfold cutFirst at h
      split at h
      · simp_all
      · simp only [Option.map_eq_some_iff, Prod.mk.injEq] at h
        obtain ⟨⟨front, back⟩, hcut, rfl, rfl⟩ := h
        simp [ih hcut]

end JavaStructure.Text
