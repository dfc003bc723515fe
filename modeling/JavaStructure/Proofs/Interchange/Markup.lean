/-
# Reading markup

A reader of XML that goes through a text character by character. It knows the part of XML that
documents here are written in, and is strict in it: tags match, an element does not have two
attributes of one key, nothing but white space stands between tags, and values hold only what
XML allows in them. The tags of a document have only to be well spelled and matched for their
lines to be read.
-/

import JavaStructure.Interchange.Document
import JavaStructure.Proofs.Interchange.AttributeValues

namespace JavaStructure

namespace Markup

open Interchange (Tag TagForm)

/-- An element as a reader sees it. -/
structure Element where
  name : String
  attributes : List (String × String) := []
  children : List Element := []

/-- White space of XML. -/
def isSpace (c : Char) : Bool :=
  c = ' ' || c = '\t' || c = '\n' || c = '\r'

/-- The characters that XML allows in a document. -/
def isAllowed (c : Char) : Bool :=
  isSpace c || (0x20 ≤ c.toNat && c.toNat ≠ 0xFFFE && c.toNat ≠ 0xFFFF)

/-- Characters that a name may begin with, among those of ASCII. -/
def beginsName (c : Char) : Bool :=
  c.isAlpha || c = '_' || c = ':'

/-- Characters that a name may go on with, among those of ASCII. -/
def continuesName (c : Char) : Bool :=
  beginsName c || c.isDigit || c = '-' || c = '.'

/-- Whether a text is a name. -/
def isName : List Char → Bool
  | [] => false
  | c :: rest => beginsName c && rest.all continuesName

theorem exists_of_isName {text : List Char} (named : isName text = true) :
    ∃ first others, text = first :: others ∧ beginsName first = true ∧
      ∀ c ∈ others, continuesName c = true := by
  cases text with
  | nil => cases named
  | cons first others =>
      rw [isName, Bool.and_eq_true, List.all_eq_true] at named
      exact ⟨first, others, rfl, named⟩

/-- The character that a reference stands for, by the name between its marks. -/
def named? (name : List Char) : Option Char :=
  [("lt".toList, '<'), ("gt".toList, '>'), ("amp".toList, '&'), ("apos".toList, '\''),
    ("quot".toList, '"')].lookup name

/-- A value as far as it was read. -/
structure ValueReader where
  text : List Char := []
  /-- The name of an open reference, as far as it was read. -/
  reference : Option (List Char) := none
  deriving DecidableEq

/-- Read a character of a value. -/
def ValueReader.step (reader : ValueReader) (c : Char) : Option ValueReader :=
  match reader.reference with
  | none =>
      if c = '&' then some { reader with reference := some [] }
      else if c = '<' ∨ c = '"' ∨ isAllowed c = false then none
      else some { text := reader.text ++ [c] }
  | some name =>
      if c = ';' then (named? name).map fun c => { text := reader.text ++ [c] }
      else if c.isAlpha then some { reader with reference := some (name ++ [c]) }
      else none

/-- What a reader hands on of a value: a line break and a tab are given as a blank. -/
def normalized : List Char → List Char
  | '\r' :: '\n' :: rest => ' ' :: normalized rest
  | c :: rest => (if isSpace c then ' ' else c) :: normalized rest
  | [] => []

/-- A text as it is handed on. -/
def spoken (text : String) : String :=
  Text.mapChars normalized text

/-- The value that was read, if no reference is open. -/
def ValueReader.ended? (reader : ValueReader) : Option String :=
  if reader.reference.isSome then none else some (.ofList (normalized reader.text))

/-- The value that a text between quotes is read as. -/
def value? (text : String) : Option String :=
  (text.toList.foldlM ValueReader.step {}).bind ValueReader.ended?

/-- An attribute is read as another one of the same key. -/
structure ReadsAs (pair read : String × String) : Prop where
  key : read.1 = pair.1
  value : value? pair.2 = some read.2

/-- What a word is read for. -/
inductive WordUse where
  | startTag
  | endTag
  | key (element : Element)

/-- Where a reader stands. -/
inductive Place where
  /-- Between tags. -/
  | content
  /-- Behind the bracket of a tag. -/
  | bracket
  /-- In a name. -/
  | word (use : WordUse) (front : List Char)
  /-- Behind white space in a start tag. -/
  | gap (element : Element)
  /-- Behind the equals sign of an attribute. -/
  | equals (element : Element) (key : String)
  | value (element : Element) (key : String) (reader : ValueReader)
  /-- Behind the quote that ends a value. -/
  | valueEnd (element : Element)
  /-- Behind the slash of an empty element. -/
  | slash (element : Element)

/-- What was read of a document. -/
structure Reader where
  place : Place := .content
  /-- The open elements, innermost first. -/
  around : List Element := []
  root : Option Element := none

namespace Reader

/-- Go on at a place. -/
def at_ (reader : Reader) (place : Place) : Reader :=
  { reader with place }

/-- Take an element that is read. There is one root. -/
def add (reader : Reader) (element : Element) : Option Reader :=
  match reader.around with
  | parent :: outer =>
      let parent := { parent with children := parent.children ++ [element] }
      some { reader with place := .content, around := parent :: outer }
  | [] =>
      if reader.root.isSome then none
      else some { reader with place := .content, root := some element }

/-- Open an element. -/
def enter (reader : Reader) (element : Element) : Option Reader :=
  if reader.around.isEmpty ∧ reader.root.isSome then none
  else some { reader with place := .content, around := element :: reader.around }

/-- Close the innermost element, which has to have the name. -/
def leave (reader : Reader) (name : String) : Option Reader :=
  match reader.around with
  | element :: outer =>
      if element.name = name then { reader with around := outer }.add element else none
  | [] => none

/-- Go on behind the name of a start tag or behind a value in it. -/
def goOn (reader : Reader) (element : Element) (c : Char) : Option Reader :=
  if isSpace c then some (reader.at_ (.gap element))
  else if c = '>' then reader.enter element
  else if c = '/' then some (reader.at_ (.slash element))
  else none

/-- Read a character. -/
def step (reader : Reader) (c : Char) : Option Reader :=
  match reader.place with
  | .content =>
      if isSpace c then some reader else if c = '<' then some (reader.at_ .bracket) else none
  | .bracket =>
      if c = '/' then some (reader.at_ (.word .endTag []))
      else if beginsName c then some (reader.at_ (.word .startTag [c]))
      else none
  | .word use front =>
      if continuesName c then some (reader.at_ (.word use (front ++ [c])))
      else
        match use with
        | .startTag => reader.goOn { name := .ofList front } c
        | .endTag => if c = '>' then reader.leave (.ofList front) else none
        | .key element =>
            if c = '=' ∧ .ofList front ∉ element.attributes.map Prod.fst then
              some (reader.at_ (.equals element (.ofList front)))
            else none
  | .gap element =>
      if beginsName c then some (reader.at_ (.word (.key element) [c])) else reader.goOn element c
  | .equals element key => if c = '"' then some (reader.at_ (.value element key {})) else none
  | .value element key value =>
      if c = '"' then
        value.ended?.map fun text =>
          reader.at_ (.valueEnd { element with attributes := element.attributes ++ [(key, text)] })
      else (value.step c).map fun value => reader.at_ (.value element key value)
  | .valueEnd element => reader.goOn element c
  | .slash element => if c = '>' then reader.add element else none

end Reader

/-- The line that a document begins with. -/
def declaration : List Char :=
  "<?xml version=\"1.0\" encoding=\"UTF-8\"?>".toList

/-- The root element that was read, if nothing is open. -/
def Reader.ended? (reader : Reader) : Option Element :=
  match reader.place, reader.around with
  | .content, [] => reader.root
  | _, _ => none

/-- The root element of a document, if it is well formed. -/
def read? (text : String) : Option Element :=
  (declaration.isPrefixOf? text.toList).bind fun body =>
    (body.foldlM Reader.step {}).bind Reader.ended?

/-- The declaration is only looked for. -/
theorem read?_eq {text : String} {body : List Char}
    (written : text.toList = declaration ++ body) :
    read? text = (body.foldlM Reader.step {}).bind Reader.ended? := by
  rw [read?, List.isPrefixOf?_eq_some_iff_append_eq.mpr written.symm, Option.bind_some]

theorem ValueReader.step_quote (reader : ValueReader) : reader.step '"' = none := by
  obtain ⟨text, reference⟩ := reader
  cases reference <;> rfl

/-- The name of a reference is read, and the reference is what it stands for. -/
theorem foldlM_reference {c : Char} (known : Text.entityReference c ∈ Text.references)
    (text : List Char) :
    (Text.entityReference c).foldlM ValueReader.step { text } =
      some { text := text ++ [c] } := by
  have marked : c ∈ ['>', '<', '&', '\'', '"'] := by
    by_contra plain
    rw [((Text.entityReference_cases c).resolve_left plain).2] at known
    simp [Text.references] at known
  simp only [List.mem_cons, List.not_mem_nil, or_false] at marked
  rcases marked with rfl | rfl | rfl | rfl | rfl <;> rfl

theorem ValueReader.step_plain {c : Char} (allowed : isAllowed c = true) (noTag : c ≠ '<')
    (noQuote : c ≠ '"') (noReference : c ≠ '&') (text : List Char) :
    ValueReader.step { text } c = some { text := text ++ [c] } := by
  simp [step, allowed, noTag, noQuote, noReference]

/-- A way to write the characters of a text in a value: each as its reference, or as itself if
it is none of the three marks. -/
def Writes (write : Char → List Char) (text : List Char) : Prop :=
  ∀ c ∈ text, isAllowed c = true ∧
    (write c = Text.entityReference c ∨ write c = [c] ∧ c ≠ '<' ∧ c ≠ '"' ∧ c ≠ '&')

/-- A text is read from what it is written as. -/
theorem foldlM_written {write : Char → List Char} {text : List Char} (writes : Writes write text)
    (front : List Char) :
    (text.flatMap write).foldlM ValueReader.step { text := front } =
      some { text := front ++ text } := by
  induction text generalizing front with
  | nil => simp
  | cons c rest ih =>
      obtain ⟨⟨allowed, written⟩, writes⟩ := List.forall_mem_cons.mp writes
      have first : (write c).foldlM ValueReader.step { text := front } =
          some { text := front ++ [c] } := by
        have plain (own : write c = [c]) (noTag : c ≠ '<') (noQuote : c ≠ '"')
            (noReference : c ≠ '&') : (write c).foldlM ValueReader.step { text := front } =
              some { text := front ++ [c] } := by
          rw [own, List.foldlM_cons, ValueReader.step_plain allowed noTag noQuote noReference]
          rfl
        rcases written with reference | ⟨own, noTag, noQuote, noReference⟩
        · rcases Text.entityReference_mem_or c with known | ⟨own, noTag, noQuote, noReference⟩
          · rw [reference]
            exact foldlM_reference known front
          · exact plain (reference.trans own) noTag noQuote noReference
        · exact plain own noTag noQuote noReference
      rw [List.flatMap_cons, List.foldlM_append, first]
      exact (ih writes _).trans (by rw [List.append_assoc, List.singleton_append])

theorem value?_written {write : Char → List Char} {text : String}
    (writes : Writes write text.toList) :
    value? (.ofList (text.toList.flatMap write)) = some (spoken text) := by
  rw [value?, String.toList_ofList, foldlM_written writes]
  rfl

/-- Reading a text takes a reader from one state to another. -/
def Moves (before : Reader) (text : List Char) (after : Reader) : Prop :=
  text.foldlM Reader.step before = some after

section Moves

variable {before middle after reader : Reader} {place : Place} {element : Element}
variable {front back rest : List Char} {c : Char}

theorem Moves.nil : Moves reader [] reader := rfl

theorem Moves.cons (first : before.step c = some middle) (later : Moves middle rest after) :
    Moves before (c :: rest) after := by
  rw [Moves, List.foldlM_cons, first]
  exact later

theorem Moves.append (first : Moves before front middle) (later : Moves middle back after) :
    Moves before (front ++ back) after := by
  rw [Moves, List.foldlM_append, first]
  exact later

/-- White space between tags is skipped. -/
theorem moves_spaces (spaces : ∀ c ∈ rest, isSpace c = true) :
    Moves (reader.at_ .content) rest (reader.at_ .content) := by
  induction rest with
  | nil => exact .nil
  | cons c rest ih =>
      obtain ⟨space, spaces⟩ := List.forall_mem_cons.mp spaces
      exact .cons (by simp [Reader.step, Reader.at_, space]) (ih spaces)

/-- The level of a tag is skipped. -/
theorem moves_level (level : Nat) :
    Moves (reader.at_ .content) (List.replicate level ' ') (reader.at_ .content) := by
  refine moves_spaces fun c inside => ?_
  rw [List.eq_of_mem_replicate inside]
  rfl

/-- The characters of a word are collected. -/
theorem moves_word {use : WordUse} (continues : ∀ c ∈ rest, continuesName c = true) :
    Moves (reader.at_ (.word use front)) rest (reader.at_ (.word use (front ++ rest))) := by
  induction rest generalizing front with
  | nil => rw [List.append_nil]; exact .nil
  | cons c rest ih =>
      obtain ⟨first, continues⟩ := List.forall_mem_cons.mp continues
      have collected : front ++ c :: rest = (front ++ [c]) ++ rest := by simp
      rw [collected]
      exact .cons (by simp [Reader.step, Reader.at_, first]) (ih continues)

theorem moves_value {key : String} {value read : ValueReader}
    (reads : rest.foldlM ValueReader.step value = some read) :
    Moves (reader.at_ (.value element key value)) rest
      (reader.at_ (.value element key read)) := by
  induction rest generalizing value with
  | nil =>
      obtain rfl := Option.some.inj reads
      exact .nil
  | cons c rest ih =>
      rw [List.foldlM_cons] at reads
      obtain ⟨next, first, reads⟩ := Option.bind_eq_some_iff.mp reads
      have other : c ≠ '"' := by
        rintro rfl
        rw [ValueReader.step_quote] at first
        cases first
      exact .cons (by simp [Reader.step, Reader.at_, other, first]) (ih reads)

/-- The element of a start tag of which a name or a value was just read. -/
def Place.part? : Place → Option Element
  | .word .startTag name => some { name := .ofList name }
  | .valueEnd element => some element
  | _ => none

theorem step_part (part : place.part? = some element) (ends : continuesName c = false) :
    (reader.at_ place).step c = reader.goOn element c := by
  unfold Place.part? at part
  split at part
  · cases part
    simp [Reader.step, Reader.at_, ends]
    rfl
  · cases part
    rfl
  · cases part

/-- An attribute adds its key and the value it is read as. -/
theorem moves_attribute (reader : Reader) (part : place.part? = some element)
    {key text value : String}
    (named : isName key.toList = true) (fresh : key ∉ element.attributes.map Prod.fst)
    (read : value? text = some value) :
    Moves (reader.at_ place) (Tag.attributeText (key, text)).toList
      (reader.at_
        (.valueEnd { element with attributes := element.attributes ++ [(key, value)] })) := by
  obtain ⟨first, others, spelled, letter, letters⟩ := exists_of_isName named
  obtain ⟨last, reads, ended⟩ := Option.bind_eq_some_iff.mp read
  have written : (Tag.attributeText (key, text)).toList =
      ' ' :: first :: (others ++ '=' :: '"' :: (text.toList ++ ['"'])) := by
    simp [Tag.attributeText, spelled]
  have keyRead : String.ofList (first :: others) = key := by rw [← spelled, String.ofList_toList]
  have gap : (reader.at_ place).step ' ' = some (reader.at_ (.gap element)) :=
    (step_part part (by decide)).trans rfl
  have begins : (reader.at_ (.gap element)).step first =
      some (reader.at_ (.word (.key element) [first])) := by
    simp [Reader.step, Reader.at_, letter]
  have equals : (reader.at_ (.word (.key element) (first :: others))).step '=' =
      some (reader.at_ (.equals element key)) := by
    simp only [Reader.step, Reader.at_, keyRead]
    simp [fresh, show continuesName '=' = false by decide]
  have quote : (reader.at_ (.equals element key)).step '"' =
      some (reader.at_ (.value element key {})) := rfl
  have closing : (reader.at_ (.value element key last)).step '"' = some (reader.at_
      (.valueEnd { element with attributes := element.attributes ++ [(key, value)] })) := by
    simp [Reader.step, Reader.at_, ended]
  rw [written]
  refine .cons gap (.cons begins ?_)
  refine (moves_word letters).append (.cons equals (.cons quote ?_))
  exact (moves_value reads).append (.cons closing .nil)

/-- Attributes of different keys add what they are read as. -/
theorem moves_attributes (reader : Reader) (part : place.part? = some element)
    {attributes read : List (String × String)} (reads : List.Forall₂ ReadsAs attributes read)
    (named : ∀ pair ∈ attributes, isName pair.1.toList = true)
    (different : (element.attributes.map Prod.fst ++ attributes.map Prod.fst).Nodup) :
    ∃ last : Place,
      last.part? = some { element with attributes := element.attributes ++ read } ∧
        Moves (reader.at_ place)
          (attributes.flatMap fun pair => (Tag.attributeText pair).toList)
          (reader.at_ last) := by
  induction reads generalizing place element with
  | nil =>
      obtain ⟨name, attributes, children⟩ := element
      exact ⟨place, by rw [part, List.append_nil], .nil⟩
  | @cons pair readPair attributes read first reads ih =>
      obtain ⟨_, text⟩ := pair
      obtain ⟨key, value⟩ := readPair
      obtain ⟨rfl, reading⟩ := first
      obtain ⟨keyNamed, named⟩ := List.forall_mem_cons.mp named
      have fresh : key ∉ element.attributes.map Prod.fst := fun inside =>
        (List.nodup_append.mp different).2.2 key inside key List.mem_cons_self rfl
      have written := moves_attribute reader part keyNamed fresh reading
      have grown : (Place.valueEnd { element with
          attributes := element.attributes ++ [(key, value)] }).part? = some _ := rfl
      obtain ⟨last, partToo, moves⟩ := ih grown named (by simpa using different)
      exact ⟨last, by simpa using partToo, written.append moves⟩

end Moves

/-- A tag is well spelled, and its attributes are read as some others. -/
structure Spells (tag : Tag) (read : List (String × String)) : Prop where
  name : isName tag.name.toList = true
  keys : ∀ pair ∈ tag.attributes, isName pair.1.toList = true
  different : (tag.attributes.map Prod.fst).Nodup
  values : List.Forall₂ ReadsAs tag.attributes read

/-- The name and the keys of a tag are told apart from its values. -/
theorem Spells.of_keys {tag : Tag} {read : List (String × String)} (name : String)
    (keys : List String) (isNamed : tag.name = name)
    (haveKeys : tag.attributes.map Prod.fst = keys)
    (named : ∀ word ∈ name :: keys, isName word.toList = true) (different : keys.Nodup)
    (values : List.Forall₂ ReadsAs tag.attributes read) : Spells tag read where
  name := isNamed ▸ named name List.mem_cons_self
  keys pair inside :=
    named pair.1 (List.mem_cons_of_mem _ (haveKeys ▸ List.mem_map_of_mem inside))
  different := haveKeys ▸ different
  values := values

/-- The text of some tags, each on a line of its own. -/
def textOf (tags : List Tag) : List Char :=
  tags.flatMap fun tag => tag.line.toList ++ ['\n']

section Tags

variable {reader inside after : Reader} {tag opening closing : Tag} {name : String}
variable {read : List (String × String)} {children : List Element} {tags : List Tag}

/-- A bracket and a name bring a reader into a start tag, and the attributes up to its end. -/
theorem moves_start (reader : Reader) (spells : Spells tag read) (level : Nat) :
    ∃ last : Place, last.part? = some { name := tag.name, attributes := read } ∧
      Moves (reader.at_ .content)
        (List.replicate level ' ' ++ '<' :: (tag.name.toList ++
          tag.attributes.flatMap fun pair => (Tag.attributeText pair).toList))
        (reader.at_ last) := by
  obtain ⟨first, others, spelled, letter, letters⟩ := exists_of_isName spells.name
  have nameRead : String.ofList (first :: others) = tag.name := by
    rw [← spelled, String.ofList_toList]
  have part : (Place.word .startTag (first :: others)).part? = some { name := tag.name } := by
    rw [Place.part?, nameRead]
  obtain ⟨last, partToo, moves⟩ := moves_attributes reader part spells.values spells.keys
    (by simpa using spells.different)
  refine ⟨last, partToo, ?_⟩
  have other : first ≠ '/' := by
    rintro rfl
    exact absurd letter (by decide)
  have begins : (reader.at_ .bracket).step first =
      some (reader.at_ (.word .startTag [first])) := by
    simp [Reader.step, Reader.at_, other, letter]
  rw [spelled, List.cons_append]
  refine (moves_level level).append (.cons rfl (.cons begins ?_))
  exact (moves_word letters).append moves

/-- White space and slashes and brackets end the part of a start tag before them. -/
theorem step_gap {element : Element} {c : Char} (ends : beginsName c = false) :
    (reader.at_ (.gap element)).step c = reader.goOn element c := by
  simp [Reader.step, Reader.at_, ends]
  rfl

theorem enter_place {element : Element} (entered : reader.enter element = some after) :
    after.place = .content := by
  rw [Reader.enter] at entered
  split at entered
  · cases entered
  · obtain rfl := Option.some.inj entered
    rfl

theorem add_place {element : Element} (added : reader.add element = some after) :
    after.place = .content := by
  rw [Reader.add] at added
  split at added
  · obtain rfl := Option.some.inj added
    rfl
  · split at added
    · cases added
    · obtain rfl := Option.some.inj added
      rfl

/-- The end of a line is skipped. -/
theorem moves_feed (content : reader.place = .content) : Moves reader ['\n'] reader := by
  refine .cons ?_ .nil
  rw [Reader.step, content]
  rfl

/-- The line of an opening tag opens an element. -/
theorem moves_opening (form : tag.form = .opening) (spells : Spells tag read)
    (entered : reader.enter { name := tag.name, attributes := read } = some inside) :
    Moves (reader.at_ .content) (tag.line.toList ++ ['\n']) inside := by
  obtain ⟨last, part, moves⟩ := moves_start reader spells tag.level
  have bracket : (reader.at_ last).step '>' = some inside :=
    (step_part part (by decide)).trans entered
  have ending : Moves (reader.at_ last)
      (if tag.attributes.isEmpty then ['>'] else [' ', '>']) inside := by
    split
    · exact .cons bracket .nil
    · exact .cons (step_part part (by decide))
        (.cons ((step_gap (by decide)).trans entered) .nil)
  have line : tag.line.toList = (List.replicate tag.level ' ' ++ '<' :: (tag.name.toList ++
      tag.attributes.flatMap fun pair => (Tag.attributeText pair).toList)) ++
        (if tag.attributes.isEmpty then ['>'] else [' ', '>']) := by
    simp only [Tag.line, form]
    split <;> simp [List.flatMap_map]
  rw [line]
  exact (moves.append ending).append (moves_feed (enter_place entered))

/-- The line of an empty element adds the element. -/
theorem moves_empty (reader : Reader) (form : tag.form = .empty) (spells : Spells tag read)
    (added : reader.add { name := tag.name, attributes := read } = some after) :
    Moves (reader.at_ .content) (tag.line.toList ++ ['\n']) after := by
  obtain ⟨last, part, moves⟩ := moves_start reader spells tag.level
  have ending : Moves (reader.at_ last) [' ', '/', '>'] after :=
    .cons (step_part part (by decide)) (.cons (step_gap (by decide)) (.cons added .nil))
  have line : tag.line.toList = (List.replicate tag.level ' ' ++ '<' :: (tag.name.toList ++
      tag.attributes.flatMap fun pair => (Tag.attributeText pair).toList)) ++
        [' ', '/', '>'] := by
    simp [Tag.line, form, List.flatMap_map]
  rw [line]
  exact (moves.append ending).append (moves_feed (add_place added))

/-- The line of a closing tag closes the innermost element. -/
theorem moves_closing (form : tag.form = .closing) (named : isName tag.name.toList = true)
    (left : reader.leave tag.name = some after) (content : after.place = .content) :
    Moves (reader.at_ .content) (tag.line.toList ++ ['\n']) after := by
  obtain ⟨first, others, spelled, letter, letters⟩ := exists_of_isName named
  have nameRead : String.ofList tag.name.toList = tag.name := String.ofList_toList
  have continues : ∀ c ∈ tag.name.toList, continuesName c = true := by
    rw [spelled]
    exact List.forall_mem_cons.mpr ⟨by simp [continuesName, letter], letters⟩
  have closes : (reader.at_ (.word .endTag tag.name.toList)).step '>' = some after := by
    refine Eq.trans ?_ left
    simp [Reader.step, Reader.at_, nameRead, show continuesName '>' = false by decide]
    rfl
  have line : tag.line.toList =
      List.replicate tag.level ' ' ++ '<' :: '/' :: (tag.name.toList ++ ['>']) := by
    simp [Tag.line, form]
  rw [line]
  refine Moves.append ((moves_level _).append (.cons rfl (.cons rfl ?_))) (moves_feed content)
  exact (moves_word continues).append (.cons closes .nil)

/-- Give an element more children. -/
def Element.extend (element : Element) (children : List Element) : Element :=
  { element with children := element.children ++ children }

theorem Element.extend_nil (element : Element) : element.extend [] = element := by
  obtain ⟨name, attributes, children⟩ := element
  rw [extend, List.append_nil]

theorem Element.extend_extend (element : Element) (front back : List Element) :
    (element.extend front).extend back = element.extend (front ++ back) := by
  rw [extend, extend, extend, List.append_assoc]

/-- Within an open element, the lines of some tags are read as some elements. -/
def Tells (tags : List Tag) (elements : List Element) : Prop :=
  ∀ parent outer root, Moves ⟨.content, parent :: outer, root⟩ (textOf tags)
    ⟨.content, parent.extend elements :: outer, root⟩

theorem Tells.nil : Tells [] [] := by
  intro parent outer root
  rw [Element.extend_nil]
  exact .nil

theorem Tells.append {front back : List Tag} {first later : List Element}
    (tells : Tells front first) (tellsLater : Tells back later) :
    Tells (front ++ back) (first ++ later) := by
  intro parent outer root
  rw [textOf, List.flatMap_append, ← Element.extend_extend]
  exact (tells parent outer root).append (tellsLater _ outer root)

/-- What items tell, they tell one after another. -/
theorem tells_flatMap {α : Type} {tags : α → List Tag} {element : α → Element} {items : List α}
    (tells : ∀ item ∈ items, Tells (tags item) [element item]) :
    Tells (items.flatMap tags) (items.map element) := by
  induction items with
  | nil => exact .nil
  | cons item rest ih =>
      obtain ⟨first, tells⟩ := List.forall_mem_cons.mp tells
      exact first.append (ih tells)

theorem tells_empty (form : tag.form = .empty) (spells : Spells tag read) :
    Tells [tag] [{ name := tag.name, attributes := read }] := by
  intro parent outer root
  rw [textOf, List.flatMap_singleton]
  exact moves_empty ⟨.content, parent :: outer, root⟩ form spells rfl

/-- Two tags around others make the element whose children the others tell. -/
theorem moves_around (reader : Reader) (opens : opening.form = .opening)
    (closes : closing.form = .closing) (same : closing.name = opening.name)
    (spells : Spells opening read) (tells : Tells tags children)
    (room : reader.around = [] → reader.root = none)
    (added : reader.add { name := opening.name, attributes := read, children } = some after) :
    Moves (reader.at_ .content) (textOf (opening :: tags ++ [closing])) after := by
  have entered : reader.enter { name := opening.name, attributes := read } =
      some ⟨.content, { name := opening.name, attributes := read } :: reader.around,
        reader.root⟩ := by
    refine if_neg fun ⟨outside, rooted⟩ => ?_
    rw [room (List.isEmpty_iff.mp outside)] at rooted
    cases rooted
  have named : isName closing.name.toList = true := same ▸ spells.name
  have left : Reader.leave ⟨.content, { name := opening.name, attributes := read, children } ::
      reader.around, reader.root⟩ closing.name = some after := by
    simp only [Reader.leave, same, if_true]
    exact added
  have opened := moves_opening opens spells entered
  have told := tells { name := opening.name, attributes := read } reader.around reader.root
  have closed := moves_closing closes named left (add_place added)
  have text : textOf (opening :: tags ++ [closing]) =
      (opening.line.toList ++ ['\n']) ++ (textOf tags ++ (closing.line.toList ++ ['\n'])) := by
    simp [textOf]
  rw [text]
  exact opened.append (told.append closed)

theorem tells_around (opening closing : Tag) (opens : opening.form = .opening)
    (closes : closing.form = .closing) (same : closing.name = opening.name)
    (spells : Spells opening read) (tells : Tells tags children) :
    Tells (opening :: tags ++ [closing])
      [{ name := opening.name, attributes := read, children }] := by
  intro parent outer root
  exact moves_around ⟨.content, parent :: outer, root⟩ opens closes same spells tells
    (fun outside => nomatch outside) rfl

/-- A text whose tags make one element is read as the element. -/
theorem read?_around (opening closing : Tag) (opens : opening.form = .opening)
    (closes : closing.form = .closing) (same : closing.name = opening.name)
    (spells : Spells opening read) (tells : Tells tags children) {text : String}
    (written : text.toList =
      declaration ++ '\n' :: textOf (opening :: tags ++ [closing])) :
    read? text = some { name := opening.name, attributes := read, children } := by
  have moves : Moves {} ('\n' :: textOf (opening :: tags ++ [closing]))
      { root := some { name := opening.name, attributes := read, children } } :=
    .cons rfl (moves_around {} opens closes same spells tells (fun _ => rfl) rfl)
  rw [read?_eq written, moves]
  rfl

end Tags

end Markup

end JavaStructure
