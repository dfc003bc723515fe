/-
# Names in type texts

A type text is a possibly dotted name with type arguments, array brackets and the dots of a
variable-arity parameter behind it. The scanner reads the name in one piece, whatever follows, and
erasing leaves the name alone. So it makes no difference whether a text is erased and then
qualified, or qualified piece by piece and then erased.
-/

import Mathlib.Data.List.TakeWhile
import JavaStructure.Names.Qualify
import JavaStructure.Proofs.Text.Lines

namespace JavaStructure.Names

variable {c : Char} {word name front back rest : List Char} {q : Qualifier}

/-- An identifier of the ASCII alphabet. -/
def isIdentifier : List Char → Bool
  | [] => false
  | c :: rest => isNameStart c && rest.all isNamePart

/-- Identifiers with dots between them. -/
inductive IsDottedName : List Char → Prop
  | single {word : List Char} (identifier : isIdentifier word = true) : IsDottedName word
  | dotted {word name : List Char} (identifier : isIdentifier word = true)
      (rest : IsDottedName name) : IsDottedName (word ++ '.' :: name)

/-- A character of a name is neither a blank nor a mark of a type text. -/
theorem plain_of_isNamePart (part : isNamePart c = true) :
    isBracketOrBlank c = false ∧ c ≠ '<' ∧ c ≠ '.' := by
  have letters :
      c.isAlpha = (decide (65 ≤ c.val ∧ c.val ≤ 90) || (97 ≤ c.val && c.val ≤ 122)) := rfl
  simp only [isNamePart, isNameStart, letters, Char.isDigit, Bool.or_eq_true, Bool.and_eq_true,
    decide_eq_true_eq, beq_iff_eq, UInt32.le_iff_toNat_le, ge_iff_le] at part
  change ((((65 ≤ c.toNat ∧ c.toNat ≤ 90) ∨ (97 ≤ c.toNat ∧ c.toNat ≤ 122)) ∨ c = '_') ∨
    c = '$') ∨ (48 ≤ c.toNat ∧ c.toNat ≤ 57) at part
  have code : 48 ≤ c.toNat ∧ c.toNat ≤ 57 ∨ 65 ≤ c.toNat ∧ c.toNat ≤ 90 ∨
      97 ≤ c.toNat ∧ c.toNat ≤ 122 ∨ c.toNat = 95 ∨ c.toNat = 36 := by
    rcases part with (((upper | lower) | rfl) | rfl) | digit
    · exact .inr (.inl upper)
    · exact .inr (.inr (.inl lower))
    · decide
    · decide
    · exact .inl digit
  have other (mark : Char) (outside : mark.toNat = 46 ∨ mark.toNat = 60 ∨ mark.toNat = 91 ∨
      mark.toNat = 93) : c ≠ mark := by
    rintro rfl
    omega
  have unblank : Text.isBlank c = false := by
    simp only [Text.isBlank, Bool.or_eq_false_iff, Bool.and_eq_false_iff, decide_eq_false_iff_not,
      beq_eq_false_iff_ne]
    omega
  refine ⟨?_, other '<' (by decide), other '.' (by decide)⟩
  simp [isBracketOrBlank, unblank, other '[' (by decide), other ']' (by decide)]

theorem isNamePart_of_isNameStart (start : isNameStart c = true) : isNamePart c = true := by
  rw [isNamePart, start, Bool.true_or]

theorem isBlank_of_isNamePart (part : isNamePart c = true) : Text.isBlank c = false := by
  have plain := (plain_of_isNamePart part).1
  rw [isBracketOrBlank, Bool.or_eq_false_iff] at plain
  exact plain.2

theorem isNamePart_of_mem (identifier : isIdentifier word = true) (inside : c ∈ word) :
    isNamePart c = true := by
  cases word with
  | nil => cases inside
  | cons first rest =>
      rw [isIdentifier, Bool.and_eq_true, List.all_eq_true] at identifier
      rcases List.mem_cons.mp inside with rfl | later
      · exact isNamePart_of_isNameStart identifier.1
      · exact identifier.2 c later

theorem exists_cons_of_isIdentifier (identifier : isIdentifier word = true) :
    ∃ c rest, word = c :: rest ∧ isNameStart c = true := by
  cases word with
  | nil => cases identifier
  | cons c rest =>
      rw [isIdentifier, Bool.and_eq_true] at identifier
      exact ⟨c, rest, rfl, identifier.1⟩

theorem exists_concat_of_isIdentifier (identifier : isIdentifier word = true) :
    ∃ front c, word = front ++ [c] ∧ isNamePart c = true := by
  rcases List.eq_nil_or_concat word with rfl | ⟨front, c, rfl⟩
  · cases identifier
  · rw [List.concat_eq_append] at identifier ⊢
    exact ⟨front, c, rfl, isNamePart_of_mem identifier (List.mem_append_right _ List.mem_cons_self)⟩

namespace IsDottedName

/-- A dotted name starts with a character that can start a name. -/
theorem exists_cons (dotted : IsDottedName name) :
    ∃ c rest, name = c :: rest ∧ isNameStart c = true := by
  cases dotted with
  | single identifier => exact exists_cons_of_isIdentifier identifier
  | dotted identifier =>
      obtain ⟨c, rest, rfl, start⟩ := exists_cons_of_isIdentifier identifier
      exact ⟨c, _, rfl, start⟩

/-- A dotted name ends with a character of a name. -/
theorem exists_concat (dotted : IsDottedName name) :
    ∃ front c, name = front ++ [c] ∧ isNamePart c = true := by
  induction dotted with
  | single identifier => exact exists_concat_of_isIdentifier identifier
  | @dotted word _ _ _ ih =>
      obtain ⟨front, c, rfl, part⟩ := ih
      exact ⟨word ++ '.' :: front, c, by simp, part⟩

/-- A dotted name consists of characters of names and of dots. -/
theorem part_or_dot (dotted : IsDottedName name) (inside : c ∈ name) :
    isNamePart c = true ∨ c = '.' := by
  induction dotted with
  | single identifier => exact .inl (isNamePart_of_mem identifier inside)
  | dotted identifier _ ih =>
      rcases List.mem_append.mp inside with first | others
      · exact .inl (isNamePart_of_mem identifier first)
      · rcases List.mem_cons.mp others with rfl | later
        · exact .inr rfl
        · exact ih later

theorem plain (dotted : IsDottedName name) (inside : c ∈ name) :
    isBracketOrBlank c = false ∧ Text.isBlank c = false ∧ c ≠ '<' := by
  rcases dotted.part_or_dot inside with part | rfl
  · have plain := plain_of_isNamePart part
    exact ⟨plain.1, isBlank_of_isNamePart part, plain.2.1⟩
  · decide

/-- Two dotted names with a dot between them are one. -/
theorem append (first : IsDottedName front) (second : IsDottedName back) :
    IsDottedName (front ++ '.' :: back) := by
  induction first with
  | single identifier => exact .dotted identifier second
  | dotted identifier _ ih =>
      rw [List.append_assoc, List.cons_append]
      exact .dotted identifier ih

end IsDottedName

theorem isDottedName_intercalate {words : List (List Char)} (nonempty : words ≠ [])
    (identifiers : ∀ word ∈ words, isIdentifier word = true) :
    IsDottedName (['.'].intercalate words) := by
  induction words with
  | nil => exact absurd rfl nonempty
  | cons word others ih =>
      obtain ⟨first, later⟩ := List.forall_mem_cons.mp identifiers
      cases others with
      | nil => exact .single (by simpa using first)
      | cons next rest =>
          have joined : ['.'].intercalate (word :: next :: rest) =
              word ++ '.' :: ['.'].intercalate (next :: rest) := by
            rw [Text.intercalate_cons, Text.intercalate_cons, List.flatMap_cons, List.cons_append]
          rw [joined]
          exact .dotted first (ih (List.cons_ne_nil _ _) later)

/-- A dotted name is an identifier between any two dots. -/
theorem isDottedName_iff :
    IsDottedName name ↔ ∀ word ∈ name.splitOn '.', isIdentifier word = true := by
  constructor
  · intro dotted
    have unmarked {word : List Char} (identifier : isIdentifier word = true) : '.' ∉ word :=
      fun inside => (plain_of_isNamePart (isNamePart_of_mem identifier inside)).2.2 rfl
    induction dotted with
    | single identifier =>
        rw [List.splitOn_eq_singleton (unmarked identifier)]
        exact List.forall_mem_singleton.mpr identifier
    | dotted identifier _ ih =>
        rw [List.splitOn_append_cons_self_of_not_mem (unmarked identifier)]
        exact List.forall_mem_cons.mpr ⟨identifier, ih⟩
  · intro identifiers
    have joined : ['.'].intercalate (name.splitOn '.') = name := List.intercalate_splitOn '.'
    exact joined ▸ isDottedName_intercalate (List.splitOn_ne_nil _ _) identifiers

instance : DecidablePred IsDottedName :=
  fun _ => decidable_of_iff _ isDottedName_iff.symm

/-- What can stand behind the name of a type: type arguments with all that follows them, or array
brackets and the dots of a variable-arity parameter. -/
inductive IsTrailing : List Char → Prop
  | arguments (rest : List Char) : IsTrailing ('<' :: rest)
  | dimensions (count : Nat) (variadic : Bool) :
      IsTrailing
        ((List.replicate count ['[', ']']).flatten ++ if variadic then ['.', '.', '.'] else [])

/-- What a type text consists of: a possibly dotted name that is no keyword of a bound, and what
can stand behind it. -/
inductive IsTypeText : String → Prop
  | mk {name rest : List Char} (dotted : IsDottedName name)
      (unbound : isBoundKeyword (.ofList name) = false) (trailing : IsTrailing rest) :
      IsTypeText (.ofList (name ++ rest))

/-- Trailing dots are dropped behind a text that does not end with a dot itself. -/
theorem dropEndWords_dots (variadic : Bool) (plain : name.getLast? ≠ some '.') :
    Text.dropEndWords "...".toList (name ++ if variadic then ['.', '.', '.'] else []) = name := by
  cases variadic with
  | false =>
      rw [if_neg Bool.false_ne_true, List.append_nil]
      exact Text.dropEndWords_of_getLast plain ['.', '.']
  | true =>
      have head : name.reverse.head? ≠ some '.' := by rwa [List.head?_reverse]
      have kept (bound : Nat) := Text.dropWordUpTo_of_head head ['.', '.'] bound
      have front : (name ++ ['.', '.', '.']).reverse = ['.', '.', '.'] ++ name.reverse := by simp
      have dots : "...".toList.reverse = ['.', '.', '.'] := rfl
      rw [if_pos rfl, Text.dropEndWords, Text.dropWords, front, dots]
      change (Text.dropWordUpTo _ (_ + 1) _).reverse = _
      rw [Text.dropWordUpTo, Text.dropWord?_append]
      dsimp only
      rw [kept, List.reverse_reverse]

theorem bracket_of_mem {count : Nat} (inside : c ∈ (List.replicate count ['[', ']']).flatten) :
    c = '[' ∨ c = ']' := by
  obtain ⟨pair, member, within⟩ := List.mem_flatten.mp inside
  rw [List.eq_of_mem_replicate member] at within
  simpa using within

/-- A name has no ending that erasing drops. -/
theorem IsDottedName.trim_dropEndWhile (dotted : IsDottedName name) :
    Text.trim (Text.dropEndWhile isBracketOrBlank name) = name := by
  obtain ⟨front, last, ends, part⟩ := dotted.exists_concat
  rw [ends, Text.dropEndWhile_concat front (plain_of_isNamePart part).1, ← ends]
  exact Text.trim_of_plain fun c inside => (dotted.plain inside).2.1

theorem IsDottedName.getLast?_ne (dotted : IsDottedName name) : name.getLast? ≠ some '.' := by
  obtain ⟨front, last, ends, part⟩ := dotted.exists_concat
  rw [ends, List.getLast?_concat]
  exact fun same => (plain_of_isNamePart part).2.2 (Option.some.inj same)

/-- Type arguments are cut off with all that follows them. -/
theorem eraseChars_arguments (dotted : IsDottedName name) (rest : List Char) :
    eraseChars (name ++ '<' :: rest) = name := by
  have noArguments : ∀ c ∈ name, (c != '<') = true := fun c inside =>
    bne_iff_ne.mpr (dotted.plain inside).2.2
  have before : (name ++ '<' :: rest).takeWhile (fun c => c != '<') = name := by
    rw [List.takeWhile_append_of_pos noArguments, List.takeWhile_cons_of_neg (by decide),
      List.append_nil]
  have kept : Text.dropEndWords "...".toList name = name :=
    Text.dropEndWords_of_getLast dotted.getLast?_ne ['.', '.']
  rw [eraseChars, before, kept, dotted.trim_dropEndWhile]

/-- Array brackets and the dots behind them are dropped. -/
theorem eraseChars_dimensions (dotted : IsDottedName name) (count : Nat) (variadic : Bool) :
    eraseChars (name ++ ((List.replicate count ['[', ']']).flatten ++
      if variadic then ['.', '.', '.'] else [])) = name := by
  have bracket (c : Char) (inside : c ∈ (List.replicate count ['[', ']']).flatten) :
      c = '[' ∨ c = ']' := bracket_of_mem inside
  generalize (List.replicate count ['[', ']']).flatten = dimensions at bracket
  have whole : (name ++ (dimensions ++ if variadic then ['.', '.', '.'] else [])).takeWhile
      (fun c => c != '<') = (name ++ dimensions) ++ if variadic then ['.', '.', '.'] else [] := by
    rw [List.append_assoc, List.takeWhile_eq_self_iff]
    intro c inside
    rw [bne_iff_ne]
    rintro rfl
    rcases List.mem_append.mp inside with inName | behind
    · exact (dotted.plain inName).2.2 rfl
    · rcases List.mem_append.mp behind with inDimensions | inDots
      · exact absurd (bracket '<' inDimensions) (by decide)
      · cases variadic <;> simp at inDots
  have noDot : (name ++ dimensions).getLast? ≠ some '.' := by
    rw [List.getLast?_append]
    cases last : dimensions.getLast? with
    | none => exact dotted.getLast?_ne
    | some c =>
        intro same
        obtain rfl : c = '.' := Option.some.inj same
        exact absurd (bracket '.' (List.mem_of_getLast? last)) (by decide)
  have brackets : ∀ c ∈ dimensions, isBracketOrBlank c = true := by
    intro c inside
    rcases bracket c inside with rfl | rfl <;> rfl
  rw [eraseChars, whole, dropEndWords_dots variadic noDot, Text.dropEndWhile_append brackets,
    dotted.trim_dropEndWhile]

/-- A name alone is left of a type text. -/
theorem eraseChars_append (dotted : IsDottedName name) (trailing : IsTrailing rest) :
    eraseChars (name ++ rest) = name := by
  cases trailing with
  | arguments rest => exact eraseChars_arguments dotted rest
  | dimensions count variadic => exact eraseChars_dimensions dotted count variadic

/-- Whether a name that was read up to a character goes on with it. -/
def goesOn (c : Char) (rest : List Char) : Bool :=
  isNamePart c || (c == '.' && rest.head?.any isNameStart)

theorem pieces_nil_cons (c : Char) (rest : List Char) :
    pieces [] (c :: rest) =
      if isNameStart c then pieces [c] rest else .mark c :: pieces [] rest := by
  cases rest <;> rfl

theorem pieces_cons_cons (last : Char) (before : List Char) (c : Char) (rest : List Char) :
    pieces (last :: before) (c :: rest) =
      if goesOn c rest then pieces (c :: last :: before) rest
      else .name (last :: before).reverse :: .mark c :: pieces [] rest := by
  cases rest <;> rfl

theorem pieces_parts {reversed : List Char} (started : reversed ≠ [])
    (parts : ∀ c ∈ word, isNamePart c = true) (rest : List Char) :
    pieces reversed (word ++ rest) = pieces (word.reverse ++ reversed) rest := by
  induction word generalizing reversed with
  | nil => rfl
  | cons c word ih =>
      obtain ⟨own, later⟩ := List.forall_mem_cons.mp parts
      obtain ⟨last, before, rfl⟩ := List.exists_cons_of_ne_nil started
      have on : goesOn c (word ++ rest) = true := by rw [goesOn, own, Bool.true_or]
      calc pieces (last :: before) (c :: (word ++ rest))
        _ = pieces (c :: last :: before) (word ++ rest) := by rw [pieces_cons_cons, if_pos on]
        _ = pieces (word.reverse ++ c :: last :: before) rest := ih (List.cons_ne_nil _ _) later
        _ = pieces ((c :: word).reverse ++ last :: before) rest := by simp

theorem pieces_identifier (identifier : isIdentifier word = true) (reversed rest : List Char) :
    pieces reversed (word ++ rest) = pieces (word.reverse ++ reversed) rest := by
  cases reversed with
  | cons last before =>
      exact pieces_parts (List.cons_ne_nil _ _)
        (fun c inside => isNamePart_of_mem identifier inside) rest
  | nil =>
      obtain ⟨c, word, rfl, start⟩ := exists_cons_of_isIdentifier identifier
      have parts : ∀ later ∈ word, isNamePart later = true := fun later inside =>
        isNamePart_of_mem identifier (List.mem_cons_of_mem _ inside)
      calc pieces [] (c :: (word ++ rest))
        _ = pieces [c] (word ++ rest) := by rw [pieces_nil_cons, if_pos start]
        _ = pieces (word.reverse ++ [c]) rest := pieces_parts (List.cons_ne_nil _ _) parts rest
        _ = pieces ((c :: word).reverse ++ []) rest := by
          rw [List.reverse_cons, List.append_nil]

/-- A dotted name is collected as a whole. -/
theorem pieces_dottedName (dotted : IsDottedName name) (reversed rest : List Char) :
    pieces reversed (name ++ rest) = pieces (name.reverse ++ reversed) rest := by
  induction dotted generalizing reversed with
  | single identifier => exact pieces_identifier identifier reversed rest
  | @dotted word name identifier dotted ih =>
      obtain ⟨c, later, starts, start⟩ := dotted.exists_cons
      obtain ⟨front, last, ends, -⟩ := exists_concat_of_isIdentifier identifier
      have collected : word.reverse ++ reversed = last :: (front.reverse ++ reversed) := by
        rw [ends]
        simp
      have on : goesOn '.' (name ++ rest) = true := by
        rw [starts, goesOn]
        simp [start]
      have dot : pieces (word.reverse ++ reversed) ('.' :: (name ++ rest)) =
          pieces ('.' :: (word.reverse ++ reversed)) (name ++ rest) := by
        rw [collected, pieces_cons_cons, if_pos on]
      calc pieces reversed (word ++ '.' :: name ++ rest)
        _ = pieces reversed (word ++ '.' :: (name ++ rest)) := by
          rw [List.append_assoc, List.cons_append]
        _ = pieces (word.reverse ++ reversed) ('.' :: (name ++ rest)) :=
          pieces_identifier identifier reversed _
        _ = pieces ('.' :: (word.reverse ++ reversed)) (name ++ rest) := dot
        _ = pieces (name.reverse ++ '.' :: (word.reverse ++ reversed)) rest := ih _
        _ = pieces ((word ++ '.' :: name).reverse ++ reversed) rest := by simp

/-- Whether a name that was read so far ends in front of a text. -/
def endsName : List Char → Bool
  | [] => true
  | c :: rest => !isNameStart c && !goesOn c rest

/-- What was collected is a name where the name ends. -/
theorem pieces_of_endsName {reversed : List Char} (started : reversed ≠ [])
    (ends : endsName rest = true) :
    pieces reversed rest = .name reversed.reverse :: pieces [] rest := by
  obtain ⟨last, before, rfl⟩ := List.exists_cons_of_ne_nil started
  cases rest with
  | nil => rfl
  | cons c rest =>
      rw [endsName, Bool.and_eq_true, Bool.not_eq_true', Bool.not_eq_true'] at ends
      rw [pieces_cons_cons, pieces_nil_cons, if_neg (Bool.eq_false_iff.mp ends.1),
        if_neg (Bool.eq_false_iff.mp ends.2)]

/-- A dotted name is read as one piece. -/
theorem pieces_append (dotted : IsDottedName name) (ends : endsName rest = true) :
    pieces [] (name ++ rest) = .name name :: pieces [] rest := by
  obtain ⟨front, last, whole, -⟩ := dotted.exists_concat
  have started : name.reverse ++ [] ≠ [] := by
    rw [whole]
    simp
  rw [pieces_dottedName dotted, pieces_of_endsName started ends, List.append_nil,
    List.reverse_reverse]

/-- What can start no name consists of marks. -/
theorem pieces_marks (noStart : ∀ c ∈ rest, isNameStart c = false) :
    pieces [] rest = rest.map .mark := by
  induction rest with
  | nil => rfl
  | cons c rest ih =>
      obtain ⟨own, later⟩ := List.forall_mem_cons.mp noStart
      rw [pieces_nil_cons, if_neg (Bool.eq_false_iff.mp own), ih later, List.map_cons]

namespace IsTrailing

/-- A name ends in front of whatever can stand behind it. -/
theorem endsName (trailing : IsTrailing rest) : Names.endsName rest = true := by
  cases trailing with
  | arguments rest => cases rest <;> rfl
  | dimensions count variadic =>
      cases count with
      | zero => cases variadic <;> rfl
      | succ count => rfl

/-- Brackets and dots start no name, and none of them is blank. -/
theorem mark_of_mem_dimensions {count : Nat} {variadic : Bool}
    (inside : c ∈ (List.replicate count ['[', ']']).flatten ++
      if variadic then ['.', '.', '.'] else []) :
    isNameStart c = false ∧ Text.isBlank c = false := by
  rcases List.mem_append.mp inside with bracket | dot
  · rcases bracket_of_mem bracket with rfl | rfl <;> decide
  · obtain rfl : c = '.' := by
      cases variadic <;> simp at dot
      exact dot
    decide

end IsTrailing

/-- Only what follows a name can lose blanks. -/
theorem exists_of_trim (dotted : IsDottedName name) (trailing : IsTrailing rest) :
    ∃ kept, IsTrailing kept ∧ Text.trim (name ++ rest) = name ++ kept := by
  obtain ⟨first, others, starts, start⟩ := dotted.exists_cons
  have front : Text.trimStart (name ++ rest) = name ++ rest := by
    rw [starts, List.cons_append,
      Text.trimStart_cons (isBlank_of_isNamePart (isNamePart_of_isNameStart start))]
  rw [Text.trim, front, Text.trimEnd]
  cases trailing with
  | arguments rest =>
      exact ⟨_, .arguments _, Text.dropEndWhile_append_cons name (by decide) rest⟩
  | dimensions count variadic =>
      refine ⟨_, .dimensions count variadic, Text.dropEndWhile_of_forall fun c inside => ?_⟩
      rcases List.mem_append.mp inside with inName | behind
      · exact (dotted.plain inName).2.1
      · exact (IsTrailing.mark_of_mem_dimensions behind).2

/-- A name has nothing to erase. -/
theorem erase_of_isDottedName (dotted : IsDottedName name) :
    erase (.ofList name) = .ofList name := by
  have bare := eraseChars_append dotted (.dimensions 0 false)
  rw [if_neg Bool.false_ne_true, List.replicate_zero, List.flatten_nil, List.append_nil,
    List.append_nil] at bare
  rw [erase, Text.mapChars, String.toList_ofList, bare]

namespace Qualifier

/-- A name that is no keyword of a bound is qualified as it is elsewhere. -/
theorem qualifyPiece_name (q : Qualifier) (dotted : IsDottedName name)
    (unbound : isBoundKeyword (.ofList name) = false) :
    q.qualifyPiece (.name name) = (q.qualifyName (.ofList name)).toList := by
  simp only [qualifyPiece, unbound, Bool.false_eq_true, or_false]
  split
  · next fixed => rw [qualifyName, if_pos fixed, String.toList_ofList]
  · rw [qualify, erase_of_isDottedName dotted]

theorem flatMap_qualifyPiece_marks (q : Qualifier) (text : List Char) :
    (text.map Piece.mark).flatMap q.qualifyPiece = text := by
  rw [List.flatMap_map]
  exact List.flatMap_singleton' text

/-- Behind the qualified name stands what can stand behind the name of a type. -/
theorem exists_of_qualifyText (q : Qualifier) (dotted : IsDottedName name)
    (unbound : isBoundKeyword (.ofList name) = false) (trailing : IsTrailing rest) :
    ∃ behind, IsTrailing behind ∧
      q.qualifyText (.ofList (name ++ rest)) =
        .ofList ((q.qualifyName (.ofList name)).toList ++ behind) := by
  obtain ⟨kept, trailing, trimmed⟩ := exists_of_trim dotted trailing
  refine ⟨(pieces [] kept).flatMap q.qualifyPiece, ?_, ?_⟩
  · cases trailing with
    | arguments rest =>
        rw [pieces_nil_cons, if_neg (by decide), List.flatMap_cons]
        exact .arguments _
    | dimensions count variadic =>
        rw [pieces_marks fun c inside => (IsTrailing.mark_of_mem_dimensions inside).1,
          flatMap_qualifyPiece_marks]
        exact .dimensions count variadic
  · calc q.qualifyText (.ofList (name ++ rest))
      _ = .ofList ((pieces [] (name ++ kept)).flatMap q.qualifyPiece) := by
        rw [qualifyText, Text.mapChars, String.toList_ofList, trimmed]
      _ = .ofList (q.qualifyPiece (.name name) ++ (pieces [] kept).flatMap q.qualifyPiece) := by
        rw [pieces_append dotted trailing.endsName, List.flatMap_cons]
      _ = _ := by rw [q.qualifyPiece_name dotted unbound]

/-- A name that stands alone is qualified as it is elsewhere. -/
theorem qualifyText_name (q : Qualifier) (dotted : IsDottedName name)
    (unbound : isBoundKeyword (.ofList name) = false) :
    q.qualifyText (.ofList name) = q.qualify (.ofList name) := by
  have trimmed : Text.trim name = name :=
    Text.trim_of_plain fun c inside => (dotted.plain inside).2.1
  have read : pieces [] (name ++ []) = .name name :: pieces [] [] := pieces_append dotted rfl
  rw [List.append_nil] at read
  calc q.qualifyText (.ofList name)
    _ = .ofList ((pieces [] name).flatMap q.qualifyPiece) := by
      rw [qualifyText, Text.mapChars, String.toList_ofList, trimmed]
    _ = .ofList (q.qualifyName (.ofList name)).toList := by
      rw [read, List.flatMap_cons, q.qualifyPiece_name dotted unbound]
      simp [pieces, collected]
    _ = q.qualify (.ofList name) := by
      rw [String.ofList_toList, qualify, erase_of_isDottedName dotted]

/-- All names by which others are qualified are dotted names, but for a package without name. -/
structure HasDottedNames (q : Qualifier) : Prop where
  package : q.names.packageName = "" ∨ IsDottedName q.names.packageName.toList
  imported : ∀ row ∈ q.names.imports, IsDottedName row.2.toList
  wildcard : ∀ package ∈ q.names.wildcards, IsDottedName package.toList
  declared : ∀ row ∈ q.declared, IsDottedName row.2.toList

instance : DecidablePred HasDottedNames := fun _ =>
  decidable_of_iff (_ ∧ _ ∧ _ ∧ _)
    ⟨fun ⟨package, imported, wildcard, declared⟩ => ⟨package, imported, wildcard, declared⟩,
      fun ⟨package, imported, wildcard, declared⟩ => ⟨package, imported, wildcard, declared⟩⟩

theorem isDottedName_of_lookup {rows : List (String × String)} {key found : String}
    (plain : ∀ row ∈ rows, IsDottedName row.2.toList) (looked : rows.lookup key = some found) :
    IsDottedName found.toList := by
  obtain ⟨front, back, rfl, -⟩ := List.lookup_eq_some_iff.mp looked
  exact plain (key, found) (List.mem_append_right _ List.mem_cons_self)

theorem isDottedName_behind {package : String} (plain : IsDottedName package.toList)
    (dotted : IsDottedName name) : IsDottedName (package ++ "." ++ .ofList name).toList := by
  have whole : (package ++ "." ++ .ofList name).toList = package.toList ++ '.' :: name := by simp
  rw [whole]
  exact plain.append dotted

/-- A dotted name is qualified by a dotted name. -/
theorem HasDottedNames.qualifyName {q : Qualifier} (plain : q.HasDottedNames)
    (dotted : IsDottedName name) : IsDottedName (q.qualifyName (.ofList name)).toList := by
  have asIs : IsDottedName (String.ofList name).toList := by rwa [String.toList_ofList]
  have language : "java.lang." = "java.lang" ++ "." := by decide +kernel
  rw [Qualifier.qualifyName]
  split
  · exact asIs
  · split
    · next declared => exact isDottedName_of_lookup plain.declared declared
    · split
      · next imported => exact isDottedName_of_lookup plain.imported imported
      · split
        · rw [language]
          exact isDottedName_behind (by decide +kernel) dotted
        · split
          · next package first =>
              exact isDottedName_behind (plain.wildcard package (List.mem_of_head? first)) dotted
          · rw [Environment.inPackage]
            split
            · exact asIs
            · next named =>
                have package := plain.package.resolve_left (by simpa using named)
                exact isDottedName_behind package dotted

/-- Whether a type text is qualified piece by piece and then erased, or erased and then
qualified, makes no difference. -/
theorem erase_qualifyText {q : Qualifier} (plain : q.HasDottedNames) {text : String}
    (isType : IsTypeText text) : erase (q.qualifyText text) = q.qualify text := by
  obtain ⟨dotted, unbound, trailing⟩ := isType
  next name rest =>
  obtain ⟨behind, trails, qualified⟩ := q.exists_of_qualifyText dotted unbound trailing
  have bare := eraseChars_append (plain.qualifyName dotted) trails
  calc erase (q.qualifyText (.ofList (name ++ rest)))
    _ = .ofList (eraseChars ((q.qualifyName (.ofList name)).toList ++ behind)) := by
      rw [qualified, erase, Text.mapChars, String.toList_ofList]
    _ = q.qualifyName (.ofList name) := by rw [bare, String.ofList_toList]
    _ = q.qualifyName (erase (.ofList (name ++ rest))) := by
      rw [erase, Text.mapChars, String.toList_ofList, eraseChars_append dotted trailing]
    _ = q.qualify (.ofList (name ++ rest)) := rfl

end Qualifier

end JavaStructure.Names
