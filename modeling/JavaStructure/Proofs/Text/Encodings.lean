/-
# Numerals and units, read back

A numeral is told by what it reads as: digits of its base, the highest first, and no zero
in front of others. The units of a text are told by the characters that they stand for.
Either description leaves exactly one text, and it is the one that is written.
-/

import JavaStructure.Text.Decimal
import JavaStructure.Text.Units
import Mathlib.Data.List.Induction

namespace JavaStructure.Text

/-- The digits of the bases up to sixteen, each at the place of its value. -/
def digits : List Char := "0123456789abcdef".toList

/-- The number that digits read as in a base, the first digit being the highest. -/
def readDigits (base : Nat) (text : List Char) : Nat :=
  text.foldl (fun number c => base * number + digits.idxOf c) 0

/-- The numeral of a number in a base. -/
structure IsNumeral (base number : Nat) (text : List Char) : Prop where
  filled : text ≠ []
  ofBase : ∀ c ∈ text, c ∈ digits.take base
  reads : readDigits base text = number
  /-- Zero is the only numeral that begins with a zero. -/
  leads : text.head? = some '0' → text = ['0']

variable {base number : Nat} {text : List Char}

theorem readDigits_concat (base : Nat) (text : List Char) (c : Char) :
    readDigits base (text ++ [c]) = base * readDigits base text + digits.idxOf c := by
  simp [readDigits]

/-- Below sixteen, digits and their values are one to one. -/
theorem getElem?_digits {value : Nat} (small : value < 16) :
    digits[value]? = some value.digitChar := by
  revert value
  decide

theorem idxOf_digitChar {value : Nat} (small : value < 16) :
    digits.idxOf value.digitChar = value := by
  revert value
  decide

theorem digitChar_mem {value : Nat} (below : value < base) (small : base ≤ 16) :
    value.digitChar ∈ digits.take base := by
  rw [List.mem_iff_getElem?]
  refine ⟨value, ?_⟩
  rw [List.getElem?_take_of_lt below]
  exact getElem?_digits (Nat.lt_of_lt_of_le below small)

theorem digitChar_idxOf {c : Char} (small : base ≤ 16) (digit : c ∈ digits.take base) :
    digits.idxOf c < base ∧ (digits.idxOf c).digitChar = c := by
  obtain ⟨value, found⟩ := List.mem_iff_getElem?.mp digit
  have below : value < base := by
    by_contra outside
    rw [List.getElem?_take, if_neg outside] at found
    cases found
  have lower : value < 16 := Nat.lt_of_lt_of_le below small
  rw [List.getElem?_take_of_lt below, getElem?_digits lower] at found
  obtain rfl := Option.some.inj found
  rw [idxOf_digitChar lower]
  exact ⟨below, rfl⟩

theorem isNumeral_singleton (small : base ≤ 16) {value : Nat} (below : value < base) :
    IsNumeral base value [value.digitChar] where
  filled := List.cons_ne_nil _ _
  ofBase := by simpa using digitChar_mem below small
  reads := by simpa [readDigits] using idxOf_digitChar (Nat.lt_of_lt_of_le below small)
  leads := by simp

/-- One more digit behind a numeral that is not zero. -/
theorem IsNumeral.concat (numeral : IsNumeral base number text) (small : base ≤ 16)
    (positive : 0 < number) {value : Nat} (below : value < base) :
    IsNumeral base (base * number + value) (text ++ [value.digitChar]) where
  filled := by simp
  ofBase := by
    rw [List.forall_mem_append]
    exact ⟨numeral.ofBase, by simpa using digitChar_mem below small⟩
  reads := by
    rw [readDigits_concat, numeral.reads, idxOf_digitChar (Nat.lt_of_lt_of_le below small)]
  leads := by
    intro zero
    obtain ⟨first, rest, rfl⟩ := List.exists_cons_of_ne_nil numeral.filled
    have read := numeral.reads
    rw [numeral.leads zero] at read
    exact absurd read (Nat.ne_of_lt positive)

theorem isNumeral_toDigits (large : 1 < base) (small : base ≤ 16) (number : Nat) :
    IsNumeral base number (Nat.toDigits base number) := by
  induction number using Nat.strongRecOn with
  | ind number ih =>
      rw [Nat.toDigits_eq_if large]
      split
      · next below => exact isNumeral_singleton small below
      · next above =>
          have fewer : number / base < number := Nat.div_lt_self (by omega) large
          have positive : 0 < number / base := Nat.div_pos (by omega) (by omega)
          have longer := (ih _ fewer).concat small positive (Nat.mod_lt number (by omega))
          rwa [Nat.div_add_mod] at longer

/-- The induction takes the last digit off; what is left must not be zero, or it would
have been a zero in front. -/
theorem IsNumeral.eq_toDigits (numeral : IsNumeral base number text) (large : 1 < base)
    (small : base ≤ 16) : text = Nat.toDigits base number := by
  induction text using List.reverseRecOn generalizing number with
  | nil => exact absurd rfl numeral.filled
  | append_singleton front c ih =>
      obtain ⟨below, char⟩ := digitChar_idxOf small (numeral.ofBase c (by simp))
      have read := numeral.reads
      rw [readDigits_concat] at read
      cases front with
      | nil =>
          obtain rfl : number = digits.idxOf c := by simpa [readDigits] using read.symm
          rw [Nat.toDigits_of_lt_base below, char, List.nil_append]
      | cons first rest =>
          have notZero : first ≠ '0' := by
            rintro rfl
            have alone := numeral.leads rfl
            simp at alone
          have inFront : IsNumeral base (readDigits base (first :: rest)) (first :: rest) :=
            ⟨List.cons_ne_nil _ _, fun c inside => numeral.ofBase c (List.mem_append_left _ inside),
              rfl, fun zero => absurd (Option.some.inj zero) notZero⟩
          have written := ih inFront
          have positive : 0 < readDigits base (first :: rest) := by
            by_contra zero
            rw [Nat.eq_zero_of_not_pos zero] at written
            rw [Nat.toDigits_of_lt_base (by omega)] at written
            exact notZero (List.cons.inj written).1
          calc first :: rest ++ [c]
              = Nat.toDigits base (readDigits base (first :: rest)) ++
                  Nat.toDigits base (digits.idxOf c) := by
                rw [← written, Nat.toDigits_of_lt_base below, char]
            _ = Nat.toDigits base (base * readDigits base (first :: rest) + digits.idxOf c) :=
                Nat.toDigits_append_toDigits large positive below
            _ = Nat.toDigits base number := by rw [read]

/-- A number has one numeral in a base, the one that is written. -/
theorem isNumeral_iff (large : 1 < base) (small : base ≤ 16) :
    IsNumeral base number text ↔ text = Nat.toDigits base number := by
  refine ⟨fun numeral => numeral.eq_toDigits large small, ?_⟩
  rintro rfl
  exact isNumeral_toDigits large small number

/-- The units of sixteen bits that a text is encoded in: a character of the basic plane is
a unit, and any other a pair of a high and a low surrogate. -/
inductive Encodes : List Char → List Nat → Prop
  | nil : Encodes [] []
  | basic {c : Char} {rest : List Char} {units : List Nat} (plane : c.toNat < 0x10000)
      (behind : Encodes rest units) : Encodes (c :: rest) (c.toNat :: units)
  | pair {c : Char} {rest : List Char} {units : List Nat} {high low : Nat}
      (highest : 0xD800 ≤ high ∧ high < 0xDC00) (lowest : 0xDC00 ≤ low ∧ low < 0xE000)
      (value : c.toNat = 0x10000 + (high - 0xD800) * 0x400 + (low - 0xDC00))
      (behind : Encodes rest units) : Encodes (c :: rest) (high :: low :: units)

theorem encodes_units (text : List Char) : Encodes text (units text) := by
  induction text with
  | nil => exact .nil
  | cons c rest ih =>
      have bound : c.toNat < 0x110000 := by
        have valid := c.valid
        simp only [UInt32.isValidChar, Nat.isValidChar] at valid
        have same : c.toNat = c.val.toNat := rfl
        omega
      rw [units, List.flatMap_cons, unitsOfChar]
      split
      · next plane => exact .basic plane ih
      · next above => exact .pair (by omega) (by omega) (by omega) ih

/-- A text has one encoding, its units. -/
theorem encodes_iff {text : List Char} {list : List Nat} :
    Encodes text list ↔ list = units text := by
  constructor
  · intro encodes
    induction encodes with
    | nil => rfl
    | basic plane _ ih =>
        rw [ih, units, units, List.flatMap_cons, unitsOfChar, if_pos plane, List.singleton_append]
    | @pair c rest units' high low highest lowest value _ ih =>
        have above : ¬c.toNat < 0x10000 := by omega
        have highIs : 0xD800 + (c.toNat - 0x10000) / 0x400 = high := by omega
        have lowIs : 0xDC00 + (c.toNat - 0x10000) % 0x400 = low := by omega
        calc high :: low :: units'
          _ = [0xD800 + (c.toNat - 0x10000) / 0x400, 0xDC00 + (c.toNat - 0x10000) % 0x400] ++
              units rest := by rw [highIs, lowIs, ih]; rfl
          _ = unitsOfChar c ++ units rest := by rw [unitsOfChar, if_neg above]
          _ = units (c :: rest) := by rw [units, units, List.flatMap_cons]
  · rintro rfl
    exact encodes_units text

end JavaStructure.Text
