/-
# Reading statements back

A line of statements is cut at its number signs, and each item is told by the way it begins.
Numbers and the flag of a variable use hold no at sign, so they are cut off from behind, and
what remains is the name, whatever it holds. A line is read back as long as no condition and
no name holds a number sign; where one does, the line falls into too many items.
-/

import JavaStructure.Interchange.Stream
import JavaStructure.Proofs.Text.Lines

namespace JavaStructure

namespace Text

/-- The text that escaped text stands for. -/
def unescape : List Char → List Char
  | '&' :: 'g' :: 't' :: ';' :: rest => '>' :: unescape rest
  | '&' :: 'l' :: 't' :: ';' :: rest => '<' :: unescape rest
  | '&' :: 'a' :: 'm' :: 'p' :: ';' :: rest => '&' :: unescape rest
  | '&' :: 'a' :: 'p' :: 'o' :: 's' :: ';' :: rest => '\'' :: unescape rest
  | '&' :: 'q' :: 'u' :: 'o' :: 't' :: ';' :: rest => '"' :: unescape rest
  | c :: rest => c :: unescape rest
  | [] => []

/-- A character has an entity reference or stands for itself. -/
theorem entityReference_cases (c : Char) :
    c ∈ ['>', '<', '&', '\'', '"'] ∨ c ≠ '&' ∧ entityReference c = [c] := by
  by_cases marked : c ∈ ['>', '<', '&', '\'', '"']
  · exact .inl marked
  · simp only [List.mem_cons, List.not_mem_nil, or_false, not_or] at marked
    obtain ⟨notGreater, notLess, notAnd, notQuote, notDouble⟩ := marked
    refine .inr ⟨notAnd, ?_⟩
    unfold entityReference
    split <;> simp_all

theorem unescape_cons {c : Char} (plain : c ≠ '&') (rest : List Char) :
    unescape (c :: rest) = c :: unescape rest := by
  conv => lhs; unfold unescape
  split <;> simp_all

/-- Escaping is undone, whatever the text holds. -/
theorem unescape_escape (text : List Char) : unescape (text.flatMap entityReference) = text := by
  induction text with
  | nil => rfl
  | cons c rest ih =>
      rw [List.flatMap_cons]
      rcases entityReference_cases c with marked | ⟨plain, own⟩
      · simp only [List.mem_cons, List.not_mem_nil, or_false] at marked
        rcases marked with rfl | rfl | rfl | rfl | rfl <;> exact congrArg (_ :: ·) ih
      · rw [own, List.singleton_append, unescape_cons plain, ih]

/-- Escaped text holds a number sign exactly where the text itself holds one. -/
theorem numberSign_mem_escape {text : List Char} :
    '#' ∈ text.flatMap entityReference ↔ '#' ∈ text := by
  have absent : ∀ c ∈ ['>', '<', '&', '\'', '"'], '#' ∉ entityReference c := by
    intro c marked
    simp only [List.mem_cons, List.not_mem_nil, or_false] at marked
    rcases marked with rfl | rfl | rfl | rfl | rfl <;> decide
  rw [List.mem_flatMap]
  constructor
  · rintro ⟨c, inside, found⟩
    rcases entityReference_cases c with marked | ⟨-, own⟩
    · exact absurd found (absent c marked)
    · rw [own, List.mem_singleton] at found
      exact found ▸ inside
  · intro inside
    exact ⟨'#', inside, by decide⟩

/-- Pieces that are joined by a mark are cut apart, and each piece where it holds the mark. -/
theorem splitOn_joined (mark : Char) {pieces : List (List Char)} (nonempty : pieces ≠ []) :
    ([mark].intercalate pieces).splitOn mark = pieces.flatMap (·.splitOn mark) := by
  induction pieces with
  | nil => exact absurd rfl nonempty
  | cons piece rest ih =>
      cases rest with
      | nil => simp
      | cons next rest =>
          have later := ih (List.cons_ne_nil _ _)
          rw [List.flatMap_cons, ← later, ← List.splitOn_append_cons_self]
          simp [List.intercalate]

theorem length_splitOn_pos (mark : Char) (piece : List Char) :
    0 < (piece.splitOn mark).length :=
  List.length_pos_iff.mpr (List.splitOn_ne_nil mark piece)

/-- A piece stays whole exactly if it does not hold the mark. -/
theorem length_splitOn_eq_one_iff {mark : Char} {piece : List Char} :
    (piece.splitOn mark).length = 1 ↔ mark ∉ piece := by
  constructor
  · intro whole
    obtain ⟨only, cut⟩ := List.length_eq_one_iff.mp whole
    have joined : [mark].intercalate (piece.splitOn mark) = piece :=
      List.intercalate_splitOn mark
    rw [cut] at joined
    have inside : only ∈ piece.splitOn mark := by simp [cut]
    rw [← joined]
    simpa [List.intercalate] using not_mem_of_mem_splitOn inside
  · intro unmarked
    rw [List.splitOn_eq_singleton unmarked]
    rfl

/-- Every piece gives at least one. -/
theorem length_le_length_flatMap_splitOn (mark : Char) (pieces : List (List Char)) :
    pieces.length ≤ (pieces.flatMap (·.splitOn mark)).length := by
  induction pieces with
  | nil => simp
  | cons piece rest ih =>
      have first := length_splitOn_pos mark piece
      rw [List.flatMap_cons, List.length_append, List.length_cons]
      omega

/-- Joined pieces are cut into as many exactly if none of them holds the mark. -/
theorem length_splitOn_joined_iff (mark : Char) {pieces : List (List Char)}
    (nonempty : pieces ≠ []) :
    (([mark].intercalate pieces).splitOn mark).length = pieces.length ↔
      ∀ piece ∈ pieces, mark ∉ piece := by
  rw [splitOn_joined mark nonempty]
  clear nonempty
  induction pieces with
  | nil => simp
  | cons piece rest ih =>
      have first := length_splitOn_pos mark piece
      have others := length_le_length_flatMap_splitOn mark rest
      rw [List.flatMap_cons, List.length_append, List.length_cons, List.forall_mem_cons,
        ← length_splitOn_eq_one_iff]
      refine Iff.trans ?_ (and_congr_right fun _ => ih)
      omega

end Text

/-- The text of a statement that comes from the source: its condition or its name. -/
def Statement.text : Statement → String
  | .openScope condition => condition
  | .closeScope => ""
  | .call name _ | .variableUse name _ _ => name

/-- A statement whose text does not hold the sign that ends an item. -/
def Statement.IsPlain (statement : Statement) : Prop :=
  '#' ∉ statement.text.toList

instance (statement : Statement) : Decidable statement.IsPlain :=
  inferInstanceAs (Decidable ('#' ∉ statement.text.toList))

namespace Interchange

/-- The type that the text of a document id stands for. -/
def typeOf? (text : List Char) : Option TypeId :=
  (Text.digitsValue? text).bind fun id =>
    if firstTypeId ≤ id then some (id - firstTypeId) else none

/-- The text that was escaped. -/
def freeText (text : List Char) : String :=
  .ofList (Text.unescape text)

/-- The call that an item stands for, its mark cut off. -/
def decodeCall? (text : List Char) : Option Statement := do
  let (name, target) ← Text.cutLast '@' text
  let target ← typeOf? target
  return .call (freeText name) target

/-- The use of a variable that an item stands for, its mark cut off. -/
def decodeUse? (text : List Char) : Option Statement := do
  let (text, _) ← Text.cutLast '@' text
  let (text, type) ← Text.cutLast '@' text
  let (name, owner) ← Text.cutLast '@' text
  let owner ← typeOf? owner
  let type ← typeOf? type
  return .variableUse (freeText name) owner type

/-- The statement that an item stands for. -/
def decodeStatement? : List Char → Option Statement
  | '\x7b' :: condition => some (.openScope (freeText condition))
  | ['\x7d'] => some .closeScope
  | 'c' :: '=' :: text => decodeCall? text
  | 'v' :: '=' :: text => decodeUse? text
  | _ => none

/-- The statements that a line stands for. -/
def decodeStatements? (line : String) : Option (List Statement) :=
  match line.toList with
  | [] => some []
  | text => (text.splitOn '#').mapM decodeStatement?

theorem toList_idText (type : TypeId) :
    (idText type).toList = Nat.toDigits 10 (documentId type) := by
  rw [idText, Text.decimal, String.toList_ofList]

theorem typeOf?_idText (type : TypeId) : typeOf? (idText type).toList = some type := by
  rw [toList_idText, typeOf?, Text.digitsValue?_toDigits]
  simp [documentId]

/-- Document ids are written in digits. -/
theorem not_mem_idText {mark : Char} (other : mark.isDigit = false) (type : TypeId) :
    mark ∉ (idText type).toList := by
  intro inside
  rw [toList_idText] at inside
  have digit := Nat.isDigit_of_mem_toDigits (by decide) (by decide) inside
  rw [other] at digit
  cases digit

theorem freeText_escape (text : String) : freeText (Text.escapeText text).toList = text := by
  rw [freeText, Text.escapeText, Text.mapChars, String.toList_ofList, Text.unescape_escape,
    String.ofList_toList]

theorem numberSign_mem_escapeText {text : String} :
    '#' ∈ (Text.escapeText text).toList ↔ '#' ∈ text.toList := by
  rw [Text.escapeText, Text.mapChars, String.toList_ofList, Text.numberSign_mem_escape]

theorem decodeCall?_eq (name : String) (target : TypeId) :
    decodeCall? ((Text.escapeText name).toList ++ '@' :: (idText target).toList) =
      some (.call name target) := by
  have number : '@' ∉ (idText target).toList := not_mem_idText (by decide) target
  have cut := Text.cutLast_append (Text.escapeText name).toList number
  simp [decodeCall?, cut, typeOf?_idText, freeText_escape]

theorem decodeUse?_eq (name : String) (owner type : TypeId) :
    decodeUse? ((Text.escapeText name).toList ++
        '@' :: ((idText owner).toList ++ '@' :: ((idText type).toList ++ ['@', 't']))) =
      some (.variableUse name owner type) := by
  have number (type : TypeId) : '@' ∉ (idText type).toList := not_mem_idText (by decide) type
  have plainFlag : '@' ∉ ['t'] := by decide
  have flag := Text.cutLast_append ((Text.escapeText name).toList ++
    '@' :: (idText owner).toList ++ '@' :: (idText type).toList) plainFlag
  have typed := Text.cutLast_append ((Text.escapeText name).toList ++
    '@' :: (idText owner).toList) (number type)
  have owned := Text.cutLast_append (Text.escapeText name).toList (number owner)
  simp only [List.append_assoc, List.cons_append] at flag typed
  simp [decodeUse?, flag, typed, owned, typeOf?_idText, freeText_escape]

/-- Every item is read back, whatever its text holds. -/
theorem decodeStatement?_encodeStatement (statement : Statement) :
    decodeStatement? (encodeStatement statement).toList = some statement := by
  cases statement with
  | openScope condition =>
      have item : (encodeStatement (.openScope condition)).toList =
          '\x7b' :: (Text.escapeText condition).toList := by simp [encodeStatement]
      rw [item]
      exact congrArg (fun text => some (Statement.openScope text)) (freeText_escape condition)
  | closeScope => rfl
  | call name target =>
      have item : (encodeStatement (.call name target)).toList =
          'c' :: '=' :: ((Text.escapeText name).toList ++ '@' :: (idText target).toList) := by
        simp [encodeStatement]
      rw [item]
      exact decodeCall?_eq name target
  | variableUse name owner type =>
      have item : (encodeStatement (.variableUse name owner type)).toList =
          'v' :: '=' :: ((Text.escapeText name).toList ++
            '@' :: ((idText owner).toList ++ '@' :: ((idText type).toList ++ ['@', 't']))) := by
        simp [encodeStatement]
      rw [item]
      exact decodeUse?_eq name owner type

/-- An item holds a number sign exactly where its text does. -/
theorem numberSign_mem_encodeStatement {statement : Statement} :
    '#' ∈ (encodeStatement statement).toList ↔ ¬ statement.IsPlain := by
  have sign : '#'.isDigit = false := by decide
  have number := not_mem_idText sign
  rw [Statement.IsPlain, Classical.not_not]
  cases statement <;>
    simp [encodeStatement, Statement.text, numberSign_mem_escapeText, number]

theorem toList_encodeStatements (statements : List Statement) :
    (encodeStatements statements).toList =
      ['#'].intercalate (statements.map fun statement => (encodeStatement statement).toList) := by
  simp [encodeStatements, String.toList_intercalate, Function.comp_def]

/-- A line is cut into the items that it was joined from. -/
theorem splitOn_encodeStatements {statements : List Statement} (nonempty : statements ≠ [])
    (plain : ∀ statement ∈ statements, statement.IsPlain) :
    (encodeStatements statements).toList.splitOn '#' =
      statements.map fun statement => (encodeStatement statement).toList := by
  rw [toList_encodeStatements]
  refine List.splitOn_intercalate '#' (fun item inside => ?_) (by simpa using nonempty)
  obtain ⟨statement, member, rfl⟩ := List.mem_map.mp inside
  exact fun sign => numberSign_mem_encodeStatement.mp sign (plain statement member)

theorem encodeStatement_ne_nil (statement : Statement) :
    (encodeStatement statement).toList ≠ [] := by
  cases statement <;> simp [encodeStatement]

/-- Only the empty list gives the empty line. -/
theorem encodeStatements_ne_nil {statements : List Statement} (nonempty : statements ≠ []) :
    (encodeStatements statements).toList ≠ [] := by
  obtain ⟨first, rest, rfl⟩ := List.exists_cons_of_ne_nil nonempty
  rw [toList_encodeStatements]
  cases rest with
  | nil => simpa [List.intercalate] using encodeStatement_ne_nil first
  | cons next rest => simp [List.intercalate, encodeStatement_ne_nil first]

/-- A line without number signs in its texts is read back. -/
theorem decodeStatements?_encodeStatements {statements : List Statement}
    (plain : ∀ statement ∈ statements, statement.IsPlain) :
    decodeStatements? (encodeStatements statements) = some statements := by
  by_cases empty : statements = []
  · subst empty
    rfl
  · have read : statements.mapM (fun statement =>
        decodeStatement? (encodeStatement statement).toList) = some statements := by
      clear plain empty
      induction statements with
      | nil => rfl
      | cons first rest ih =>
          rw [List.mapM_cons, decodeStatement?_encodeStatement, ih]
          rfl
    unfold decodeStatements?
    split
    · next nothing => exact absurd nothing (encodeStatements_ne_nil empty)
    · rw [splitOn_encodeStatements empty plain, List.mapM_map]
      exact read

/-- Lists of statements whose conditions and names hold no number sign are read back from their
lines, so different ones have different lines. Whatever the texts hold, a line is cut into one
item for each statement exactly if none of them holds a number sign. -/
theorem statements_readBack :
    (∀ statements : List Statement, (∀ statement ∈ statements, statement.IsPlain) →
        decodeStatements? (encodeStatements statements) = some statements) ∧
      (∀ first second : List Statement, (∀ statement ∈ first, statement.IsPlain) →
        (∀ statement ∈ second, statement.IsPlain) →
        encodeStatements first = encodeStatements second → first = second) ∧
      ∀ statements : List Statement, statements ≠ [] →
        (((encodeStatements statements).toList.splitOn '#').length = statements.length ↔
          ∀ statement ∈ statements, statement.IsPlain) := by
  refine ⟨fun statements plain => decodeStatements?_encodeStatements plain,
    fun first second plain plainToo same => ?_, fun statements nonempty => ?_⟩
  · have read := decodeStatements?_encodeStatements plain
    rw [same, decodeStatements?_encodeStatements plainToo] at read
    exact (Option.some.inj read).symm
  · have items : statements.map (fun statement => (encodeStatement statement).toList) ≠ [] := by
      simpa using nonempty
    have whole := Text.length_splitOn_joined_iff '#' items
    rw [List.length_map, ← toList_encodeStatements] at whole
    rw [whole, List.forall_mem_map]
    exact forall₂_congr fun statement _ =>
      (not_congr numberSign_mem_encodeStatement).trans Classical.not_not

/-- Statements whose texts look like markup, like other items and like the ids behind them. -/
def crookedStatements : List Statement :=
  [.openScope "[a<b && c!='\"']", .openScope "\x7d", .call "c=d@12" 2,
    .variableUse "e@10@t" 0 1, .closeScope, .closeScope]

/-- They are read back, and a number sign would cut the first of them in two. -/
theorem crookedStatements_readBack :
    (∀ statement ∈ crookedStatements, statement.IsPlain) ∧
      encodeStatements crookedStatements =
        "\x7b[a&lt;b &amp;&amp; c!=&apos;&quot;&apos;]#\x7b\x7d#c=c=d@12@12" ++
          "#v=e@10@t@10@11@t#\x7d#\x7d" ∧
      decodeStatements? (encodeStatements crookedStatements) = some crookedStatements ∧
      ((encodeStatements crookedStatements).toList.splitOn '#').length = 6 ∧
      ((encodeStatements [.openScope "[#]", .closeScope]).toList.splitOn '#').length ≠ 2 := by
  obtain ⟨readBack, -, items⟩ := statements_readBack
  have plain : ∀ statement ∈ crookedStatements, statement.IsPlain := by decide
  refine ⟨plain, by decide, readBack crookedStatements plain,
    (items crookedStatements (by decide)).mpr plain, fun whole => ?_⟩
  have unmarked := (items [.openScope "[#]", .closeScope] (by decide)).mp whole
  exact absurd (unmarked (.openScope "[#]") (by decide)) (by decide)

end Interchange

end JavaStructure
