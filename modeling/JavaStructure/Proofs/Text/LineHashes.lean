/-
# The hash of a line

Two lines are one to the listing if they differ in their runs of blanks only:
the normalized form is a canonical form of that relation. The hash itself
is a polynomial in thirty-three over the units of the text, to the modulus of a
machine word. Both hold for every text; the listing then depends on nothing but the
normalized forms of its lines.
-/

import JavaStructure.LineHash
import JavaStructure.Proofs.Text.Encodings
import JavaStructure.Proofs.Text.Lines
import Mathlib.Algebra.BigOperators.Fin
import Mathlib.Data.Int.ModEq
import Mathlib.Tactic.Ring

namespace JavaStructure.LineHash

open Text (isBreakingBlank units Encodes IsNumeral)

/-- A run of blanks of any length but none. -/
def IsRun (run : List Char) : Prop :=
  run ≠ [] ∧ ∀ c ∈ run, isBreakingBlank c = true

/-- A text that does not begin with a blank. -/
def BeginsSolid (text : List Char) : Prop :=
  ∀ c ∈ text.head?, isBreakingBlank c = false

/-- One text becomes the other by exchanging each maximal run of blanks for some
run of blanks. -/
inductive Respaced : List Char → List Char → Prop
  | nil : Respaced [] []
  | keep {c : Char} {first second : List Char} (solid : isBreakingBlank c = false)
      (rest : Respaced first second) : Respaced (c :: first) (c :: second)
  | exchange {run other first second : List Char} (isRun : IsRun run) (isOther : IsRun other)
      (begins : BeginsSolid first) (otherBegins : BeginsSolid second)
      (rest : Respaced first second) : Respaced (run ++ first) (other ++ second)

variable {first second : List Char}

theorem normalize_nil : normalize [] = [] := rfl

/-- Within a run nothing is written. -/
theorem collapse_run {run : List Char} (blank : ∀ c ∈ run, isBreakingBlank c = true)
    (rest : List Char) : collapse false (run ++ rest) = collapse false rest := by
  induction run with
  | nil => rfl
  | cons c more ih =>
      obtain ⟨head, tail⟩ := List.forall_mem_cons.mp blank
      rw [List.cons_append, collapse, if_pos head]
      exact ih tail

/-- Behind a run it goes on as at the start. -/
theorem collapse_of_beginsSolid {text : List Char} (begins : BeginsSolid text) :
    collapse false text = normalize text := by
  cases text with
  | nil => rfl
  | cons c rest =>
      have solid : isBreakingBlank c = false := begins c rfl
      simp [normalize, collapse, solid]

/-- A run is written as one space. -/
theorem normalize_run {run rest : List Char} (isRun : IsRun run) (begins : BeginsSolid rest) :
    normalize (run ++ rest) = ' ' :: normalize rest := by
  obtain ⟨nonempty, blank⟩ := isRun
  cases run with
  | nil => exact absurd rfl nonempty
  | cons c more =>
      obtain ⟨head, tail⟩ := List.forall_mem_cons.mp blank
      calc normalize (c :: (more ++ rest))
        _ = ' ' :: collapse false (more ++ rest) := by
          rw [normalize, collapse, if_pos head, if_pos rfl]
        _ = ' ' :: collapse false rest := by rw [collapse_run tail]
        _ = ' ' :: normalize rest := by rw [collapse_of_beginsSolid begins]

theorem normalize_solid {c : Char} (solid : isBreakingBlank c = false) (rest : List Char) :
    normalize (c :: rest) = c :: normalize rest := by
  simp [normalize, collapse, solid]

/-- How a text is made of solid characters and maximal runs of blanks. -/
inductive Parsed : List Char → Prop
  | nil : Parsed []
  | solid {c : Char} {rest : List Char} (solid : isBreakingBlank c = false)
      (behind : Parsed rest) : Parsed (c :: rest)
  | run {run rest : List Char} (isRun : IsRun run) (begins : BeginsSolid rest)
      (behind : Parsed rest) : Parsed (run ++ rest)

/-- Every text is made so. A blank in front joins the run behind it, or is one by itself. -/
theorem parsed (text : List Char) : Parsed text := by
  induction text with
  | nil => exact .nil
  | cons c rest ih =>
      cases blank : isBreakingBlank c with
      | false => exact .solid blank ih
      | true =>
          have alone : IsRun [c] := ⟨List.cons_ne_nil _ _, by simpa using blank⟩
          cases ih with
          | nil => exact .run alone (by simp [BeginsSolid]) .nil
          | solid solid behind =>
              exact .run alone (by simpa [BeginsSolid] using solid) (.solid solid behind)
          | @run run rest isRun begins behind =>
              have longer : IsRun (c :: run) :=
                ⟨List.cons_ne_nil _ _, List.forall_mem_cons.mpr ⟨blank, isRun.2⟩⟩
              exact .run longer begins behind

theorem Respaced.normalize_eq (respaced : Respaced first second) :
    normalize first = normalize second := by
  induction respaced with
  | nil => rfl
  | keep solid _ ih => rw [normalize_solid solid, normalize_solid solid, ih]
  | exchange isRun isOther begins otherBegins _ ih =>
      rw [normalize_run isRun begins, normalize_run isOther otherBegins, ih]

/-- A solid character is never written for a run. -/
theorem cons_ne_space {c : Char} (solid : isBreakingBlank c = false) (rest more : List Char) :
    c :: rest ≠ ' ' :: more := by
  intro same
  obtain rfl := (List.cons.inj same).1
  exact absurd solid (by decide)

/-- The induction is on how the first text is made; the second one must be made
alike. -/
theorem respaced_of_normalize_eq (same : normalize first = normalize second) :
    Respaced first second := by
  induction parsed first generalizing second with
  | nil =>
      cases parsed second with
      | nil => exact .nil
      | solid solid _ => simp [normalize_nil, normalize_solid solid] at same
      | run isRun begins _ => simp [normalize_nil, normalize_run isRun begins] at same
  | solid solid behind ih =>
      rw [normalize_solid solid] at same
      cases parsed second with
      | nil => simp [normalize_nil] at same
      | solid otherSolid _ =>
          rw [normalize_solid otherSolid, List.cons.injEq] at same
          obtain ⟨rfl, rest⟩ := same
          exact .keep solid (ih rest)
      | run isOther otherBegins _ =>
          rw [normalize_run isOther otherBegins] at same
          exact absurd same (cons_ne_space solid _ _)
  | run isRun begins behind ih =>
      rw [normalize_run isRun begins] at same
      cases parsed second with
      | nil => simp [normalize_nil] at same
      | solid otherSolid _ =>
          rw [normalize_solid otherSolid] at same
          exact absurd same.symm (cons_ne_space otherSolid _ _)
      | run isOther otherBegins _ =>
          rw [normalize_run isOther otherBegins, List.cons.injEq] at same
          exact .exchange isRun isOther begins otherBegins (ih same.2)

theorem normalize_eq_iff : normalize first = normalize second ↔ Respaced first second :=
  ⟨respaced_of_normalize_eq, Respaced.normalize_eq⟩

/-- What is collapsed is collapsed, at the start of a run and within one. -/
theorem collapse_collapse (fresh : Bool) (text : List Char) :
    collapse fresh (collapse fresh text) = collapse fresh text := by
  have space : isBreakingBlank ' ' = true := by decide
  induction text generalizing fresh with
  | nil => rfl
  | cons c rest ih =>
      cases blank : isBreakingBlank c with
      | false => simp [collapse, blank, ih]
      | true => cases fresh <;> simp [collapse, blank, space, ih]

/-- The polynomial that a list of units stands for: the first unit has the highest
power. -/
def polynomial (start : Nat) (list : List Nat) : Nat :=
  start * 33 ^ list.length + ∑ i : Fin list.length, list.get i * 33 ^ (list.length - (i + 1))

/-- A shift by five and the hash itself are thirty-three times the hash. -/
theorem toNat_mix (hash : UInt32) (unit : Nat) :
    (mix hash unit).toNat = (hash.toNat * 33 + unit) % 2 ^ 32 := by
  simp [mix, Nat.shiftLeft_eq]
  omega

theorem polynomial_cons (start unit : Nat) (rest : List Nat) :
    polynomial start (unit :: rest) = polynomial (start * 33 + unit) rest := by
  simp only [polynomial, List.length_cons, Fin.sum_univ_succ]
  simp
  ring

/-- The start counts to the modulus only. -/
theorem polynomial_mod (start : Nat) (list : List Nat) :
    polynomial (start % 2 ^ 32) list % 2 ^ 32 = polynomial start list % 2 ^ 32 := by
  simp [polynomial, Nat.add_mod, Nat.mul_mod]

theorem toNat_foldl_mix (list : List Nat) (start : UInt32) :
    (list.foldl mix start).toNat = polynomial start.toNat list % 2 ^ 32 := by
  induction list generalizing start with
  | nil => simp [polynomial, Nat.mod_eq_of_lt start.toNat_lt]
  | cons unit rest ih =>
      rw [List.foldl_cons, ih, toNat_mix, polynomial_mod, polynomial_cons]

theorem toNat_hash (text : List Char) :
    (hash text).toNat = polynomial 5381 (units text) % 2 ^ 32 :=
  toNat_foldl_mix (units text) 5381

/-- The signed hash is the representative of the polynomial within a signed word. -/
theorem signedHash_eq_bmod (text : List Char) :
    signedHash text = (polynomial 5381 (units text) : Int).bmod (2 ^ 32) := by
  have word (number : Nat) : number.toInt32.toInt = (number : Int).bmod Int32.size :=
    Int32.toInt_ofNat'
  rw [signedHash, word, toNat_hash]
  exact Int.emod_bmod (polynomial 5381 (units text)) Int32.size

/-- The unsigned hash is the signed one to the modulus of a word. -/
theorem hash_eq_emod (text : List Char) :
    ((hash text).toNat : Int) = signedHash text % 2 ^ 32 := by
  rw [signedHash_eq_bmod, toNat_hash]
  push_cast
  exact Int.bmod_emod.symm

/-- The entry of a line in terms of its signed hash. -/
theorem entry_eq (line : List Char) (number : Nat) :
    entry line number =
      Text.hexadecimal (signedHash (normalize line) % 2 ^ 32).toNat ++ " " ++
        Text.decimal number ++ "\n" := by
  rw [entry, ← hash_eq_emod, Int.toNat_natCast]

/-- The lines that are listed are those in front, up to one that is not empty, and
all behind them are empty. -/
theorem exists_listedLines (source : List Char) :
    ∃ count ≤ (source.splitOn '\n').length,
      listedLines source = (source.splitOn '\n').take count ∧
        (∀ last ∈ ((source.splitOn '\n').take count).getLast?, last ≠ []) ∧
        ∀ line ∈ (source.splitOn '\n').drop count, line = [] := by
  obtain ⟨empties, split, empty⟩ : ∃ empties,
      source.splitOn '\n' = listedLines source ++ empties ∧ ∀ line ∈ empties, line = [] := by
    refine ⟨((source.splitOn '\n').reverse.takeWhile List.isEmpty).reverse, ?_, ?_⟩
    · rw [listedLines, ← List.reverse_append, List.takeWhile_append_dropWhile,
        List.reverse_reverse]
    · intro line member
      have all := List.all_takeWhile (p := List.isEmpty) (l := (source.splitOn '\n').reverse)
      rw [List.all_eq_true] at all
      exact List.isEmpty_iff.mp (all line (List.mem_reverse.mp member))
  have filled : ∀ last ∈ (listedLines source).getLast?, last ≠ [] := by
    intro last found
    rw [listedLines, List.getLast?_reverse] at found
    have front := List.head?_dropWhile_not List.isEmpty (source.splitOn '\n').reverse
    rw [Option.mem_def.mp found] at front
    exact fun none => absurd front (by simp [none])
  refine ⟨(listedLines source).length, ?_, ?_⟩
  · rw [split]
    simp
  · rw [split, List.take_left, List.drop_left]
    exact ⟨rfl, filled, empty⟩

/-- A line is empty exactly when its normalized form is. -/
theorem normalize_isEmpty (line : List Char) : (normalize line).isEmpty = line.isEmpty := by
  cases line with
  | nil => rfl
  | cons c rest =>
      rw [normalize, collapse]
      split <;> rfl

theorem map_normalize_listedLines (source : List Char) :
    (listedLines source).map normalize =
      (((source.splitOn '\n').map normalize).reverse.dropWhile List.isEmpty).reverse := by
  have same : List.isEmpty ∘ normalize = List.isEmpty := funext normalize_isEmpty
  have reversed : ((source.splitOn '\n').map normalize).reverse =
      (source.splitOn '\n').reverse.map normalize := List.map_reverse.symm
  rw [listedLines, List.map_reverse, reversed, List.dropWhile_map, same]

theorem map_normalize_of_respaced {lines others : List (List Char)}
    (respaced : List.Forall₂ Respaced lines others) :
    lines.map normalize = others.map normalize := by
  induction respaced with
  | nil => rfl
  | cons first _ ih => rw [List.map_cons, List.map_cons, first.normalize_eq, ih]

/-- The listing depends on the normalized lines alone. -/
theorem listing_congr {source other : String}
    (same : (source.toList.splitOn '\n').map normalize =
      (other.toList.splitOn '\n').map normalize) : listing source = listing other := by
  let rendered (normal : List Char × Nat) : String :=
    Text.hexadecimal (hash normal.1).toNat ++ " " ++ Text.decimal (normal.2 + 1) ++ "\n"
  have byNormal (text : String) :
      listing text =
        String.join ((((listedLines text.toList).map normalize).zipIdx).map rendered) := by
    rw [listing, List.zipIdx_map, List.map_map]
    rfl
  rw [byNormal, byNormal, map_normalize_listedLines, map_normalize_listedLines, same]

/-- The numerals of the listing: the one text for a number in base sixteen, and the one in
base ten. -/
theorem isNumeral_hexadecimal_iff {number : Nat} {text : List Char} :
    IsNumeral 16 number text ↔ text = (Text.hexadecimal number).toList := by
  rw [Text.isNumeral_iff (by decide) (by decide), Text.hexadecimal, String.toList_ofList]

theorem isNumeral_decimal_iff {number : Nat} {text : List Char} :
    IsNumeral 10 number text ↔ text = (Text.decimal number).toList := by
  rw [Text.isNumeral_iff (by decide) (by decide), Text.decimal, String.toList_ofList]

/-- The hashes of a source see the normalized lines only: lines have one normalized
form exactly if they differ in their runs of blanks, the hash of a text is the
polynomial of its units within a signed word, and the listing holds the lines up to the
last one that is not empty, in order and counted from one. The units are the one encoding
of a text in sixteen bits, and hash and number are told by numerals that read back. -/
theorem listing_sees_normalized_lines :
    (∀ first second : List Char, normalize first = normalize second ↔ Respaced first second) ∧
      (∀ line : List Char, normalize (normalize line) = normalize line) ∧
      (∀ (text : List Char) (list : List Nat), Encodes text list ↔ list = units text) ∧
      (∀ text : List Char,
        signedHash text ≡ polynomial 5381 (units text) [ZMOD 2 ^ 32] ∧
          -2 ^ 31 ≤ signedHash text ∧ signedHash text < 2 ^ 31) ∧
      (∀ (number : Nat) (text : List Char),
        (IsNumeral 16 number text ↔ text = (Text.hexadecimal number).toList) ∧
          (IsNumeral 10 number text ↔ text = (Text.decimal number).toList)) ∧
      (∀ source : String,
        let lines := source.toList.splitOn '\n'
        ∃ count ≤ lines.length,
          (∀ last ∈ (lines.take count).getLast?, last ≠ []) ∧
            (∀ line ∈ lines.drop count, line = []) ∧
            listing source = String.join ((lines.take count).mapIdx fun index line =>
              Text.hexadecimal (signedHash (normalize line) % 2 ^ 32).toNat ++ " " ++
                Text.decimal (index + 1) ++ "\n")) ∧
      ∀ source other : String,
        List.Forall₂ Respaced (source.toList.splitOn '\n') (other.toList.splitOn '\n') →
          listing source = listing other := by
  refine ⟨fun _ _ => normalize_eq_iff, collapse_collapse true, fun _ _ => Text.encodes_iff, ?_,
    fun _ _ => ⟨isNumeral_hexadecimal_iff, isNumeral_decimal_iff⟩, ?_, ?_⟩
  · intro text
    rw [signedHash_eq_bmod]
    refine ⟨Int.bmod_emod, ?_, ?_⟩
    · exact Int.le_bmod (by decide)
    · exact Int.bmod_lt (by decide)
  · intro source
    obtain ⟨count, bound, listed, filled, empty⟩ := exists_listedLines source.toList
    refine ⟨count, bound, filled, empty, ?_⟩
    rw [listing, listed, List.mapIdx_eq_zipIdx_map]
    simp only [entry_eq]
  · intro source other respaced
    exact listing_congr (map_normalize_of_respaced respaced)

/-- A tab for two spaces, and a run of blanks for one at the start of a line. -/
theorem respacedSource_listing :
    List.Forall₂ Respaced ("int  x;\n y".toList.splitOn '\n')
        ("int\tx;\n\t  y".toList.splitOn '\n') ∧
      listing "int  x;\n y" = listing "int\tx;\n\t  y" ∧
      listing "int\tx;\n\t  y" = "4d36a03 1\n596ede 2\n" := by
  have respaced : List.Forall₂ Respaced ("int  x;\n y".toList.splitOn '\n')
      ("int\tx;\n\t  y".toList.splitOn '\n') :=
    .cons (respaced_of_normalize_eq (by decide)) (.cons (respaced_of_normalize_eq (by decide)) .nil)
  exact ⟨respaced, listing_sees_normalized_lines.2.2.2.2.2.2 _ _ respaced, by decide +kernel⟩

end JavaStructure.LineHash
