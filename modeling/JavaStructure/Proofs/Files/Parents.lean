/-
# Parents of paths

A path without its last name is a path that has the same names in front of that one, but for names
that are passed over. The text of a parent stands in front of the text of the path, and nothing
that is passed over stands at its end.
-/

import Mathlib.Data.List.TakeWhile
import JavaStructure.Proofs.Files.Places

namespace JavaStructure

namespace Path

/-- A name that is passed over. -/
def IsVoid (name : String) : Prop :=
  name = "" ∨ name = "."

instance : DecidablePred IsVoid :=
  fun name => inferInstanceAs (Decidable (name = "" ∨ name = "."))

/-- The names that are not passed over. -/
def kept (names : List String) : List String :=
  names.filter fun name => !decide (IsVoid name)

theorem kept_append (names more : List String) : kept (names ++ more) = kept names ++ kept more :=
  List.filter_append names more

theorem kept_of_void {names : List String} (void : ∀ name ∈ names, IsVoid name) :
    kept names = [] :=
  List.filter_eq_nil_iff.mpr fun name inside => by simp [void name inside]

theorem kept_of_named {name : String} (named : ¬IsVoid name) (rest : List String) :
    kept (name :: rest) = name :: kept rest := by
  simp [kept, named]

theorem kept_of_skipped {name : String} (void : IsVoid name) (rest : List String) :
    kept (name :: rest) = kept rest := by
  simp [kept, void]

/-- The names in a text. -/
def namesOf (text : List Char) : List String :=
  (text.splitOn '/').map .ofList

/-- A text all of whose names are passed over. -/
def IsVoidText (text : List Char) : Prop :=
  ∀ name ∈ namesOf text, IsVoid name

theorem namesOf_slash (front back : List Char) :
    namesOf (front ++ '/' :: back) = namesOf front ++ namesOf back := by
  rw [namesOf, List.splitOn_append_cons_self, List.map_append]
  rfl

theorem namesOf_whole {name : List Char} (whole : '/' ∉ name) : namesOf name = [.ofList name] := by
  rw [namesOf, List.splitOn_eq_singleton whole]
  rfl

theorem isVoidText_slash {front back : List Char} :
    IsVoidText (front ++ '/' :: back) ↔ IsVoidText front ∧ IsVoidText back := by
  rw [IsVoidText, namesOf_slash, List.forall_mem_append]
  rfl

theorem isVoidText_nil : IsVoidText [] := by
  unfold IsVoidText IsVoid
  decide

theorem isVoidText_dot : IsVoidText ['.'] := by
  unfold IsVoidText IsVoid
  decide

/-- Whether a slash stands between two texts, or the first has nothing but a slash to be joined
to. -/
def Meet (front back : List Char) : Prop :=
  back = [] ∨ back.head? = some '/' ∨ front = [] ∨ front.getLast? = some '/'

/-- What is passed over may stand behind a text. -/
theorem kept_namesOf_append {front back : List Char} (meet : Meet front back)
    (void : IsVoidText back) : kept (namesOf (front ++ back)) = kept (namesOf front) := by
  obtain rfl | starts | rfl | ending := meet
  · rw [List.append_nil]
  · obtain ⟨rest, rfl⟩ := List.head?_eq_some_iff.mp starts
    have voidRest := (isVoidText_slash.mp (show IsVoidText ([] ++ '/' :: rest) from void)).2
    rw [namesOf_slash, kept_append, kept_of_void voidRest, List.append_nil]
  · rw [List.nil_append, kept_of_void void, kept_of_void isVoidText_nil]
  · obtain ⟨rest, rfl⟩ := List.getLast?_eq_some_iff.mp ending
    rw [List.append_assoc, List.singleton_append, namesOf_slash, kept_append, kept_of_void void,
      namesOf_slash, kept_append, kept_of_void isVoidText_nil]

/-- What is dropped from the end of a text is passed over. -/
theorem exists_dropped (reversed : List Char) :
    ∃ tail, reversed = tail ++ dropVoid reversed ∧ IsVoidText tail.reverse ∧
      (dropVoid reversed ≠ [] → tail = [] ∨ tail.getLast? = some '/') := by
  have longer {tail : List Char} (front : List Char) (ends : front.getLast? = some '/')
      (joined : tail = [] ∨ tail.getLast? = some '/') :
      front ++ tail = [] ∨ (front ++ tail).getLast? = some '/' := by
    obtain rfl | slash := joined
    · exact .inr (by rw [List.append_nil, ends])
    · exact .inr (by rw [List.getLast?_append, slash]; rfl)
  fun_induction dropVoid reversed with
  | case1 rest ih =>
      obtain ⟨tail, same, void, joined⟩ := ih
      refine ⟨'/' :: tail, congrArg ('/' :: ·) same, ?_, fun left => longer ['/'] rfl (joined left)⟩
      rw [List.reverse_cons, isVoidText_slash]
      exact ⟨void, isVoidText_nil⟩
  | case2 rest ih =>
      obtain ⟨tail, same, void, joined⟩ := ih
      refine ⟨'.' :: '/' :: tail, congrArg ('.' :: '/' :: ·) same, ?_,
        fun left => longer ['.', '/'] rfl (joined left)⟩
      rw [List.reverse_cons, List.reverse_cons, List.append_assoc, List.singleton_append,
        isVoidText_slash]
      exact ⟨void, isVoidText_dot⟩
  | case3 => exact ⟨['.'], rfl, isVoidText_dot, fun left => absurd rfl left⟩
  | case4 => exact ⟨[], rfl, isVoidText_nil, fun _ => .inl rfl⟩

theorem dropVoid_dropVoid (reversed : List Char) :
    dropVoid (dropVoid reversed) = dropVoid reversed := by
  fun_induction dropVoid reversed with
  | case1 rest ih => exact ih
  | case2 rest ih => exact ih
  | case3 => rfl
  | case4 reversed slash dotSlash dot => exact dropVoid.eq_4 reversed slash dotSlash dot

/-- A text that is left when nothing is to be dropped ends with a name. -/
theorem component_of_dropVoid {reversed : List Char} (done : dropVoid reversed = reversed)
    (left : reversed ≠ []) :
    ¬IsVoid (.ofList (reversed.takeWhile fun c => c != '/').reverse) := by
  cases reversed with
  | nil => exact absurd rfl left
  | cons c rest =>
      have shrinks (text : List Char) : (dropVoid text).length ≤ text.length := by
        obtain ⟨tail, same, -⟩ := exists_dropped text
        have lengths := congrArg List.length same
        rw [List.length_append] at lengths
        omega
      have noSlash : c ≠ '/' := by
        rintro rfl
        have shorter := shrinks rest
        rw [dropVoid] at done
        rw [done, List.length_cons] at shorter
        omega
      rw [List.takeWhile_cons_of_pos (by simpa using noSlash)]
      rintro (empty | dot)
      · have nothing := congrArg String.toList empty
        simp at nothing
      · have single : (c :: rest.takeWhile fun c => c != '/') = ['.'] := by
          have texts := congrArg String.toList dot
          rw [String.toList_ofList] at texts
          rw [← List.reverse_reverse (c :: _), texts]
          rfl
        obtain ⟨rfl, ends⟩ := List.cons.inj single
        cases rest with
        | nil => cases done
        | cons next more =>
            by_cases slash : next = '/'
            · subst slash
              have shorter := shrinks more
              rw [dropVoid] at done
              rw [done, List.length_cons, List.length_cons] at shorter
              omega
            · rw [List.takeWhile_cons_of_pos (by simpa using slash)] at ends
              cases ends

/-- What stands in front of an anchor's body, if there is an anchor. -/
theorem anchor_cases (text : List Char) :
    text.take (anchorLength text) = [] ∨ text.take (anchorLength text) = ['/'] ∨
      (text.take (anchorLength text) = ['.'] ∧
        (text.drop (anchorLength text) = [] ∨
          (text.drop (anchorLength text)).head? = some '/')) := by
  rw [anchorLength.eq_def]
  split
  · exact .inr (.inl rfl)
  · exact .inr (.inr ⟨rfl, .inl rfl⟩)
  · exact .inr (.inr ⟨rfl, .inr rfl⟩)
  · exact .inl rfl

/-- A text with nothing to be dropped at its end. -/
def IsTrimmed (path : Path) : Prop :=
  dropVoid (path.text.toList.drop (anchorLength path.text.toList)).reverse =
    (path.text.toList.drop (anchorLength path.text.toList)).reverse

/-- What is cut from the end of a text: a name, with what is passed over on both sides. -/
structure IsCut (text front name gap tail : List Char) : Prop where
  whole : text = front ++ gap ++ name ++ tail
  noSlash : '/' ∉ name
  nonempty : name ≠ []
  gapVoid : IsVoidText gap
  gapMeets : Meet front gap
  nameMeets : front ++ gap = [] ∨ (front ++ gap).getLast? = some '/'
  tailVoid : IsVoidText tail
  tailMeets : tail = [] ∨ tail.head? = some '/'

variable {path front : Path} {name : String}

/-- What is cut from the end of a text behind its anchor. -/
structure IsParted (body front gap name tail : List Char) : Prop where
  whole : body = front ++ gap ++ name ++ tail
  noSlash : '/' ∉ name
  nonempty : name ≠ []
  gapVoid : IsVoidText gap
  gapJoined : front ≠ [] → gap = [] ∨ gap.head? = some '/'
  nameJoined : front ++ gap = [] ∨ (front ++ gap).getLast? = some '/'
  tailVoid : IsVoidText tail
  tailMeets : tail = [] ∨ tail.head? = some '/'

theorem drop_takeWhile (text : List Char) (p : Char → Bool) :
    text.drop (text.takeWhile p).length = text.dropWhile p :=
  calc text.drop (text.takeWhile p).length
      = (text.takeWhile p ++ text.dropWhile p).drop (text.takeWhile p).length := by
        rw [List.takeWhile_append_dropWhile]
    _ = text.dropWhile p := List.drop_left

/-- A body that is left when nothing is to be dropped at its end is parted at its last name. -/
theorem exists_isParted {body : List Char} (left : dropVoid body.reverse ≠ []) :
    ∃ gap tail, IsParted body
        (dropVoid ((dropVoid body.reverse).dropWhile fun c => c != '/')).reverse gap
        ((dropVoid body.reverse).takeWhile fun c => c != '/').reverse tail ∧
      (dropVoid body.reverse = body.reverse → tail = []) := by
  obtain ⟨tail, dropped, voidTail, joined⟩ := exists_dropped body.reverse
  have trimmed (done : dropVoid body.reverse = body.reverse) : tail = [] := by
    rw [done] at dropped
    exact List.self_eq_append_left.mp dropped
  have named := component_of_dropVoid (dropVoid_dropVoid body.reverse) left
  have tailJoined := joined left
  generalize dropVoid body.reverse = left at dropped named trimmed ⊢
  have parts := List.takeWhile_append_dropWhile (p := fun c => c != '/') (l := left)
  have noSlash (c : Char) (inside : c ∈ left.takeWhile fun c => c != '/') : c ≠ '/' := by
    simpa using List.mem_takeWhile_imp inside
  have starts (c : Char) (first : (left.dropWhile fun c => c != '/').head? = some c) :
      c = '/' := by
    rw [← List.find?_not_eq_head?_dropWhile] at first
    simpa using List.find?_some first
  generalize left.takeWhile (fun c => c != '/') = component at named parts noSlash ⊢
  generalize left.dropWhile (fun c => c != '/') = rest at parts starts ⊢
  obtain ⟨gap, rested, voidGap, gapJoined⟩ := exists_dropped rest
  have gapped : (dropVoid rest).reverse ++ gap.reverse = rest.reverse := by
    rw [← List.reverse_append, ← rested]
  refine ⟨gap.reverse, tail.reverse, ⟨?_, ?_, ?_, voidGap, fun left => ?_, ?_, voidTail, ?_⟩,
    fun done => by rw [trimmed done]; rfl⟩
  · rw [← List.reverse_reverse body, dropped, ← parts, gapped]
    simp
  · exact fun slash => noSlash '/' (List.mem_reverse.mp slash) rfl
  · exact fun empty => named (.inl (by rw [empty]))
  · refine (gapJoined (mt List.reverse_eq_nil_iff.mpr left)).imp (fun none => by rw [none]; rfl) ?_
    exact fun last => by rw [List.head?_reverse, last]
  · rw [gapped]
    cases rest with
    | nil => exact .inl rfl
    | cons c more =>
        obtain rfl := starts c rfl
        exact .inr (by simp)
  · refine tailJoined.imp (fun none => by rw [none]; rfl) fun last => ?_
    rw [List.head?_reverse, last]

/-- With its anchor in front, a body that is parted is a text from which a name is cut. -/
theorem IsParted.isCut {anchor body front gap name tail : List Char}
    (parted : IsParted body front gap name tail)
    (anchored : anchor = [] ∨ anchor = ['/'] ∨
      (anchor = ['.'] ∧ (body = [] ∨ body.head? = some '/'))) :
    IsCut (anchor ++ body) (anchor ++ front) name gap tail := by
  obtain ⟨whole, noSlash, nonempty, gapVoid, gapJoined, nameJoined, tailVoid, tailMeets⟩ := parted
  -- Behind a dot in front, there is a slash before the name.
  have inner (starts : body = [] ∨ body.head? = some '/') : (front ++ gap).head? = some '/' := by
    obtain ⟨c, more, rfl⟩ := List.exists_cons_of_ne_nil nonempty
    cases outer : front ++ gap with
    | nil =>
        rw [whole, outer] at starts
        obtain nothing | slash := starts
        · cases nothing
        · obtain rfl := Option.some.inj slash
          exact absurd List.mem_cons_self noSlash
    | cons =>
        rw [whole, outer] at starts
        obtain nothing | slash := starts
        · cases nothing
        · exact slash
  refine ⟨by rw [whole]; simp, noSlash, nonempty, gapVoid, ?_, ?_, tailVoid, tailMeets⟩
  · by_cases left : front = []
    · subst left
      obtain rfl | rfl | ⟨rfl, starts⟩ := anchored
      · exact .inr (.inr (.inl rfl))
      · exact .inr (.inr (.inr rfl))
      · exact .inr (.inl (inner starts))
    · exact (gapJoined left).imp id .inl
  · rw [List.append_assoc]
    obtain nothing | slash := nameJoined
    · rw [nothing, List.append_nil]
      obtain rfl | rfl | ⟨rfl, starts⟩ := anchored
      · exact .inl rfl
      · exact .inr rfl
      · have slash := inner starts
        rw [nothing] at slash
        cases slash
    · exact .inr (by rw [List.getLast?_append, slash]; rfl)

/-- The last name of a path is cut from its text, and the parent is trimmed. -/
theorem exists_isCut (cut : path.cutLast? = some (front, name)) :
    ∃ gap tail, IsCut path.text.toList front.text.toList name.toList gap tail ∧
      (path.IsTrimmed → tail = []) ∧
      (front.text.toList = [] ∨ ∃ body, dropVoid body = body ∧ front.text.toList =
        path.text.toList.take (anchorLength path.text.toList) ++ body.reverse) := by
  have anchored := anchor_cases path.text.toList
  have whole : path.text.toList = path.text.toList.take (anchorLength path.text.toList) ++
      path.text.toList.drop (anchorLength path.text.toList) := (List.take_append_drop _ _).symm
  rw [IsTrimmed]
  simp only [cutLast?] at cut
  generalize path.text.toList = text at cut anchored whole
  generalize text.take (anchorLength text) = anchor at cut anchored whole
  generalize text.drop (anchorLength text) = body at cut anchored whole
  by_cases empty : dropVoid body.reverse = []
  · rw [if_neg (by simp [empty])] at cut
    by_cases dot : anchor = ['.']
    · -- The dot in front is the only name.
      rw [if_pos dot] at cut
      obtain ⟨rfl, rfl⟩ := Prod.mk.inj (Option.some.inj cut)
      obtain ⟨tail, dropped, voidTail, -⟩ := exists_dropped body.reverse
      obtain rfl : body = tail.reverse := by
        rw [← List.reverse_reverse body, dropped, empty, List.append_nil]
      refine ⟨[], tail.reverse, ?_, fun done => ?_, .inl rfl⟩
      · refine ⟨by rw [whole, dot]; rfl, by decide, by decide, isVoidText_nil, .inl rfl, .inl rfl,
          voidTail, ?_⟩
        obtain rfl | rfl | ⟨-, starts⟩ := anchored
        · cases dot
        · cases dot
        · exact starts
      · exact List.reverse_eq_nil_iff.mp (done.symm.trans empty)
    · rw [if_neg dot] at cut
      cases cut
  · rw [if_pos (by simpa using empty), drop_takeWhile] at cut
    obtain ⟨rfl, rfl⟩ := Prod.mk.inj (Option.some.inj cut)
    obtain ⟨gap, tail, parted, trimmed⟩ := exists_isParted empty
    simp only [String.toList_ofList]
    rw [whole]
    exact ⟨gap, tail, parted.isCut anchored, trimmed, .inr ⟨_, dropVoid_dropVoid _, rfl⟩⟩

/-- Where there is no last name, all names are passed over. -/
theorem isVoidText_of_not_cut (cut : path.cutLast? = none) : IsVoidText path.text.toList := by
  have anchored := anchor_cases path.text.toList
  have parted : path.text.toList = path.text.toList.take (anchorLength path.text.toList) ++
      path.text.toList.drop (anchorLength path.text.toList) := (List.take_append_drop _ _).symm
  simp only [cutLast?] at cut
  generalize path.text.toList = text at cut anchored parted
  generalize text.take (anchorLength text) = anchor at cut anchored parted
  generalize text.drop (anchorLength text) = body at cut anchored parted
  obtain ⟨tail, dropped, voidTail, -⟩ := exists_dropped body.reverse
  split at cut
  · cases cut
  · next nothing =>
      split at cut
      · cases cut
      · next noDot =>
          rw [show dropVoid body.reverse = [] by simpa using nothing, List.append_nil] at dropped
          rw [← dropped, List.reverse_reverse] at voidTail
          obtain rfl | rfl | ⟨dot, -⟩ := anchored
          · rwa [parted]
          · rw [parted]
            exact isVoidText_slash.mpr ⟨isVoidText_nil, voidTail⟩
          · exact absurd dot noDot

/-- The names of a text from which one is cut: those of the front, and what is passed over. -/
theorem IsCut.names {text front name gap tail : List Char} (cut : IsCut text front name gap tail) :
    ∃ before after, namesOf text = before ++ .ofList name :: after ∧
      kept before = kept (namesOf front) ∧ (∀ other ∈ after, IsVoid other) ∧
      (tail = [] → after = []) := by
  have fronts := kept_namesOf_append cut.gapMeets cut.gapVoid
  obtain ⟨before, joined, keptBefore⟩ : ∃ before, (∀ back, namesOf (front ++ gap ++ back) =
      before ++ namesOf back) ∧ kept before = kept (namesOf front) := by
    obtain nothing | slash := cut.nameMeets
    · rw [nothing] at fronts ⊢
      refine ⟨[], fun back => rfl, fronts ▸ ?_⟩
      exact (kept_of_void isVoidText_nil).symm
    · obtain ⟨outer, ending⟩ := List.getLast?_eq_some_iff.mp slash
      rw [ending] at fronts ⊢
      refine ⟨namesOf outer, fun back => ?_, ?_⟩
      · rw [List.append_assoc, List.singleton_append, namesOf_slash]
      · rw [← fronts, namesOf_slash, kept_append, kept_of_void isVoidText_nil, List.append_nil]
  obtain ⟨after, trailed, void, ends⟩ : ∃ after, namesOf (name ++ tail) = .ofList name :: after ∧
      (∀ other ∈ after, IsVoid other) ∧ (tail = [] → after = []) := by
    obtain rfl | slash := cut.tailMeets
    · refine ⟨[], ?_, fun other inside => absurd inside List.not_mem_nil, fun _ => rfl⟩
      rw [List.append_nil, namesOf_whole cut.noSlash]
    · obtain ⟨back, rfl⟩ := List.head?_eq_some_iff.mp slash
      refine ⟨namesOf back, ?_, ?_, fun other => by cases other⟩
      · rw [namesOf_slash, namesOf_whole cut.noSlash]
        rfl
      · exact (isVoidText_slash.mp (show IsVoidText ([] ++ '/' :: back) from cut.tailVoid)).2
  refine ⟨before, after, ?_, keptBefore, void, ends⟩
  rw [cut.whole, List.append_assoc _ name, joined, trailed]

/-- The names of a path: those of its parent, its last name, and what is passed over. -/
theorem names_of_cutLast? (cut : path.cutLast? = some (front, name)) :
    ∃ before after, path.names = before ++ name :: after ∧ kept before = kept front.names ∧
      (∀ other ∈ after, IsVoid other) ∧ (path.IsTrimmed → after = []) := by
  obtain ⟨gap, tail, isCut, trimmed, -⟩ := exists_isCut cut
  obtain ⟨before, after, names, keptBefore, void, ends⟩ := isCut.names
  rw [String.ofList_toList] at names
  exact ⟨before, after, names, keptBefore, void, fun done => ends (trimmed done)⟩

/-- The text of a parent stands in front of more. -/
theorem text_of_cutLast? (cut : path.cutLast? = some (front, name)) :
    ∃ more, more ≠ [] ∧ path.text.toList = front.text.toList ++ more := by
  obtain ⟨gap, tail, isCut, -⟩ := exists_isCut cut
  refine ⟨gap ++ name.toList ++ tail, ?_, by rw [isCut.whole]; simp⟩
  simp [isCut.nonempty]

theorem length_of_cutLast? (cut : path.cutLast? = some (front, name)) :
    front.text.length < path.text.length := by
  obtain ⟨more, nonempty, text⟩ := text_of_cutLast? cut
  rw [← String.length_toList, ← String.length_toList, text, List.length_append]
  exact Nat.lt_add_of_pos_right (List.length_pos_iff.mpr nonempty)

theorem isTrimmed_of_cutLast? (cut : path.cutLast? = some (front, name)) : front.IsTrimmed := by
  obtain ⟨more, nonempty, text⟩ := text_of_cutLast? cut
  obtain ⟨-, -, -, -, empty | ⟨body, done, shape⟩⟩ := exists_isCut cut
  · rw [IsTrimmed, empty]
    rfl
  -- The parent has the anchor of the path.
  have trimmed {anchor : List Char} (same : front.text.toList = anchor ++ body.reverse)
      (anchored : anchorLength (anchor ++ body.reverse) = anchor.length) : front.IsTrimmed := by
    rw [IsTrimmed, same, anchored, List.drop_left, List.reverse_reverse, done]
  generalize path.text.toList = whole at text shape
  revert shape
  rw [anchorLength.eq_def]
  split
  · exact fun shape => trimmed shape rfl
  · intro shape
    rw [shape] at text
    cases more with
    | nil => exact absurd rfl nonempty
    | cons => simp at text
  · intro shape
    refine trimmed shape ?_
    rw [shape] at text
    cases reversed : body.reverse with
    | nil => rfl
    | cons c rest =>
        rw [reversed] at text
        obtain rfl : '/' = c := by simpa using (List.cons.inj (List.cons.inj text).2).1
        rfl
  · next noSlash noDot noDotSlash =>
      intro shape
      refine trimmed shape ?_
      rw [shape] at text
      rw [List.take_zero, List.nil_append] at text ⊢
      rw [anchorLength.eq_def]
      split
      · next slash =>
          rw [slash] at text
          exact absurd text (noSlash _)
      · next dot =>
          rw [← List.reverse_reverse body, dot] at done
          cases done
      · next dotSlash =>
          rw [dotSlash] at text
          exact absurd text (noDotSlash _)
      · rfl

end Path

end JavaStructure
