/-
# Decimal numerals

Writing a natural number in base ten, and reading one back. Reading takes an
optional plus sign and any number of leading zeros, and refuses a number that
is too large for its machine word.
-/

namespace JavaStructure.Text

/-- The digits of a number in base ten, without leading zeros. -/
def decimal (n : Nat) : String :=
  .ofList (Nat.toDigits 10 n)

/-- The digits of a number in base sixteen, in lower case. -/
def hexadecimal (n : Nat) : String :=
  .ofList (Nat.toDigits 16 n)

/-- The value of a non-empty run of decimal digits. -/
def digitsValue? (text : List Char) : Option Nat :=
  if text ≠ [] ∧ text.all Char.isDigit then some (Nat.ofDigitChars 10 text 0) else none

/-- Read a number below `limit`: digits, after a plus sign if there is one. -/
def numeralBelow? (limit : Nat) (text : List Char) : Option Nat :=
  let digits := match text with
    | '+' :: rest => rest
    | _ => text
  (digitsValue? digits).filter (· < limit)

/-- Read a number that fits sixty-four bits. -/
def word64? (text : List Char) : Option Nat :=
  numeralBelow? (Nat.pow 2 64) text

/-- Digits read back to the number they were written for. -/
theorem digitsValue?_toDigits (n : Nat) : digitsValue? (Nat.toDigits 10 n) = some n := by
  have nonempty : Nat.toDigits 10 n ≠ [] := by
    intro h
    have := congrArg List.length h
    simp [Nat.length_toDigits_pos, Nat.ne_of_gt] at this
  have digits : (Nat.toDigits 10 n).all Char.isDigit = true := by
    rw [List.all_eq_true]
    intro c hc
    exact Nat.isDigit_of_mem_toDigits (by decide) (by decide) hc
  simp [digitsValue?, nonempty, digits, Nat.ofDigitChars_toDigits (b := 10) (by decide) (by decide)]

end JavaStructure.Text
