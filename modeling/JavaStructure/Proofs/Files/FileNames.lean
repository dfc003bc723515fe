/-
# File names of joined paths

A name that is joined to a path is the file name of the result, whatever the path is, as long as
the name holds no slash and does not start with a dot. Its stem ends in front of its last dot.
-/

import JavaStructure.Files.Path
import JavaStructure.Proofs.Text.Lines

namespace JavaStructure

/-- A text that holds a mark holds one for the last time. -/
theorem Text.exists_last_mark {mark : Char} {text : List Char} (inside : mark ∈ text) :
    ∃ front back, text = front ++ mark :: back ∧ mark ∉ back := by
  obtain ⟨back, front, reversed, unmarked⟩ :=
    List.eq_append_cons_of_mem (List.mem_reverse.mpr inside)
  refine ⟨front.reverse, back.reverse, ?_, fun within => unmarked (List.mem_reverse.mp within)⟩
  rw [← List.reverse_reverse text, reversed]
  simp

namespace Path

/-- A name that can only be a name: it is not empty, holds no slash and starts with no dot. -/
structure IsPlainName (name : List Char) : Prop where
  nonempty : name ≠ []
  whole : '/' ∉ name
  noDot : name.head? ≠ some '.'

variable {path : Path} {name : List Char}

theorem anchorLength_le (text : List Char) : anchorLength text ≤ 1 := by
  rw [anchorLength.eq_def]
  split <;> omega

theorem anchorLength_of_isPlainName (plain : IsPlainName name) : anchorLength name = 0 := by
  rw [anchorLength.eq_def]
  split
  · exact absurd List.mem_cons_self plain.whole
  · exact absurd rfl plain.noDot
  · exact absurd rfl plain.noDot
  · rfl

/-- Nothing is dropped behind a name. -/
theorem dropVoid_name (plain : IsPlainName name) (before : List Char) :
    dropVoid (name.reverse ++ before) = name.reverse ++ before := by
  obtain ⟨last, rest, reversed⟩ :=
    List.exists_cons_of_ne_nil (mt List.reverse_eq_nil_iff.mp plain.nonempty)
  have noSlash (c : Char) (inside : c ∈ last :: rest) : c ≠ '/' := by
    rintro rfl
    exact plain.whole (List.mem_reverse.mp (reversed ▸ inside))
  have noSingleDot (single : last = '.') : rest ≠ [] := by
    rintro rfl
    have dot : name = ['.'] := by rw [← List.reverse_reverse name, reversed, single]; rfl
    exact plain.noDot (by rw [dot]; rfl)
  rw [reversed, List.cons_append]
  refine dropVoid.eq_4 _ (fun _ same => ?_) (fun _ same => ?_) fun same => ?_
  · exact noSlash last List.mem_cons_self (List.cons.inj same).1
  · obtain ⟨single, slash⟩ := List.cons.inj same
    obtain ⟨next, others, rfl⟩ := List.exists_cons_of_ne_nil (noSingleDot single)
    exact noSlash next (List.mem_cons_of_mem _ List.mem_cons_self) (List.cons.inj slash).1
  · obtain ⟨single, nothing⟩ := List.cons.inj same
    exact noSingleDot single (List.append_eq_nil_iff.mp nothing).1

/-- A name behind a slash, or at the start, is the file name of a path. -/
theorem fileName?_of_toList (plain : IsPlainName name) (front : List Char)
    (text : path.text.toList = front ++ name)
    (ending : front.getLast? = none ∨ front.getLast? = some '/') :
    path.fileName? = some (.ofList name) := by
  have anchor : anchorLength (front ++ name) ≤ front.length := by
    cases front with
    | nil => exact Nat.le_of_eq (anchorLength_of_isPlainName plain)
    | cons c rest => exact Nat.le_trans (anchorLength_le _) (Nat.succ_le_succ (Nat.zero_le _))
  have dropped : (front.drop (anchorLength (front ++ name))).getLast? = none ∨
      (front.drop (anchorLength (front ++ name))).getLast? = some '/' := by
    rw [List.getLast?_drop]
    split
    · exact .inl rfl
    · exact ending
  have cut : path.cutLast?.map (·.2) = some (.ofList name) := by
    simp only [cutLast?, text, List.drop_append_of_le_length anchor, List.reverse_append,
      dropVoid_name plain]
    generalize front.drop (anchorLength (front ++ name)) = before at dropped
    have component : (name.reverse ++ before.reverse).takeWhile (fun c => c != '/') =
        name.reverse := by
      rw [List.takeWhile_append_of_pos fun c inside => bne_iff_ne.mpr ?_]
      · rw [← List.head?_reverse] at dropped
        cases reversed : before.reverse with
        | nil => exact List.append_nil _
        | cons c rest =>
            obtain rfl : c = '/' := by simpa [reversed] using dropped
            exact List.append_nil _
      · rintro rfl
        exact plain.whole (List.mem_reverse.mp inside)
    have something : (!(name.reverse ++ before.reverse).isEmpty) = true := by
      simp [plain.nonempty]
    rw [component, if_pos something, Option.map_some, List.reverse_reverse]
  have noDot (rest : List Char) (dot : String.ofList name = .ofList ('.' :: rest)) : False :=
    plain.noDot (by rw [String.ofList_injective dot]; rfl)
  rw [fileName?, cut]
  exact Option.filter_eq_some_iff.mpr ⟨rfl, decide_eq_true ⟨noDot [], noDot ['.']⟩⟩

/-- What is joined to a path, and is a plain name, is its file name. -/
theorem fileName?_join (directory : Path) (plain : IsPlainName name) :
    (directory.join (.ofList name)).fileName? = some (.ofList name) := by
  have relative : isAbsolute ⟨.ofList name⟩ = false := by
    rw [isAbsolute, String.toList_ofList, beq_eq_false_iff_ne]
    exact fun slash => plain.whole (List.mem_of_mem_head? slash)
  rw [join, relative, if_neg Bool.false_ne_true]
  split
  · exact fileName?_of_toList plain [] (by simp) (.inl rfl)
  · next ending => exact fileName?_of_toList plain _ (by simp) (.inr ending)
  · exact fileName?_of_toList plain (directory.text.toList ++ ['/']) (by simp) (.inr (by simp))

/-- The stem of a name without its extension, whatever it is joined to. -/
theorem exists_stem_suffix (extension : List Char) :
    ∃ suffix : List Char, (∀ c ∈ suffix, c ∈ '.' :: extension) ∧
      ∀ (directory : Path) (name : List Char), name ≠ [] →
        IsPlainName (name ++ '.' :: extension) →
          (directory.join (.ofList (name ++ '.' :: extension))).stem? =
            some (.ofList (name ++ suffix)) := by
  obtain ⟨suffix, back, cut, unmarked⟩ :=
    Text.exists_last_mark (List.mem_cons_self : '.' ∈ '.' :: extension)
  refine ⟨suffix, fun c inside => cut ▸ List.mem_append_left _ inside, ?_⟩
  intro directory name nonempty plain
  have whole : name ++ '.' :: extension = (name ++ suffix) ++ '.' :: back := by
    rw [cut, List.append_assoc]
  obtain ⟨first, rest, starts⟩ := List.exists_cons_of_ne_nil nonempty
  rw [stem?, fileName?_join directory plain, Option.map_some, cutExtension?, String.toList_ofList,
    whole, Text.cutLast_append _ unmarked, starts]
  rfl

end Path

end JavaStructure
