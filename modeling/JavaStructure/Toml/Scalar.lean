/-
# TOML scalars

The values that are written as one word: truth values, whole numbers, numbers
with a fraction or an exponent, dates and times. Each is recognised from the
whole word.
-/

import JavaStructure.Text.Cut
import JavaStructure.Toml.Value

namespace JavaStructure.Toml

/-- Digits that may be parted by single underscores. -/
def digits? (isDigit : Char → Bool) (text : List Char) : Option (List Char) :=
  let groups := text.splitOn '_'
  if groups.all fun group => !group.isEmpty && group.all isDigit then some groups.flatten else none

/-- The value of a digit in any base up to sixteen. -/
def digitValue (c : Char) : Nat :=
  if c.isDigit then c.toNat - '0'.toNat
  else if c.isLower then c.toNat - 'a'.toNat + 10
  else c.toNat - 'A'.toNat + 10

/-- The number that digits stand for. -/
def valueOf (base : Nat) (digits : List Char) : Nat :=
  digits.foldl (fun value c => base * value + digitValue c) 0

/-- The digits of the base sixteen, in either case. -/
def isHexDigit (c : Char) : Bool :=
  c.isDigit || ('a' ≤ c && c ≤ 'f') || ('A' ≤ c && c ≤ 'F')

def isOctalDigit (c : Char) : Bool :=
  '0' ≤ c && c ≤ '7'

def isBinaryDigit (c : Char) : Bool :=
  c == '0' || c == '1'

/-- Digits in base ten without a leading zero. -/
def decimalDigits? (text : List Char) : Option (List Char) :=
  (digits? Char.isDigit text).filter fun digits => digits.length = 1 || digits.head? != some '0'

/-- A sign, if there is one, as whether it is a minus, and the rest. -/
def cutSign : List Char → Bool × List Char
  | '+' :: rest => (false, rest)
  | '-' :: rest => (true, rest)
  | text => (false, text)

/-- A whole number of sixty-four bits. Only numbers in base ten have a sign. -/
def integer? (word : List Char) : Option Int :=
  let inBase (base : Nat) (digits : Option (List Char)) : Option Int :=
    (digits.map (valueOf base)).bind fun value =>
      if value < Nat.pow 2 63 then some (value : Int) else none
  match word with
  | '0' :: 'x' :: rest => inBase 16 (digits? isHexDigit rest)
  | '0' :: 'o' :: rest => inBase 8 (digits? isOctalDigit rest)
  | '0' :: 'b' :: rest => inBase 2 (digits? isBinaryDigit rest)
  | _ =>
      let (negative, rest) := cutSign word
      if negative then
        ((decimalDigits? rest).map (valueOf 10)).bind fun value =>
          if value ≤ Nat.pow 2 63 then some (-(value : Int)) else none
      else inBase 10 (decimalDigits? rest)

/-- The least number that is rounded to infinity: half a unit above the largest
double. -/
def doubleLimit : Nat :=
  Nat.pow 2 1024 - Nat.pow 2 970

/-- Whether `value` times ten to the `exponent` is too large for a double. What
the number of digits tells is told first, so that no huge power is taken. -/
def isTooLarge (value : Nat) (exponent : Int) : Bool :=
  let magnitude := exponent + (Nat.toDigits 10 value).length
  if value = 0 then false
  else if 310 ≤ magnitude then true
  else if magnitude ≤ 308 then false
  else if 0 ≤ exponent then doubleLimit ≤ value * Nat.pow 10 exponent.toNat
  else doubleLimit * Nat.pow 10 (-exponent).toNat ≤ value

/-- The exponent of a number, with a sign or without. -/
def exponent? (text : List Char) : Option Int :=
  let (negative, rest) := cutSign text
  (digits? Char.isDigit rest).map fun digits =>
    if negative then -(valueOf 10 digits : Int) else valueOf 10 digits

/-- Whether a word is a number with a fraction, an exponent or both, and without
a sign. Where `bounded` holds, it must not be too large either. -/
def isUnsignedFloat (bounded : Bool) (word : List Char) : Bool :=
  let (mantissa, exponent) :=
    match word.span fun c => c != 'e' && c != 'E' with
    | (mantissa, []) => (mantissa, none)
    | (mantissa, _ :: exponent) => (mantissa, some exponent)
  let (whole, fraction) :=
    match Text.cutFirst '.' mantissa with
    | some (whole, fraction) => (whole, some fraction)
    | none => (mantissa, none)
  match decimalDigits? whole with
  | none => false
  | some whole =>
      match fraction.map (digits? Char.isDigit), exponent.map exponent? with
      | none, none => false
      | some none, _ => false
      | _, some none => false
      | fraction, exponent =>
          let fraction := (fraction.getD none).getD []
          let exponent := (exponent.getD none).getD 0
          !bounded || !isTooLarge (valueOf 10 (whole ++ fraction)) (exponent - fraction.length)

/-- Whether a word is a number that is no whole number. A number below all
doubles counts as negative infinity, but one above all of them is refused. -/
def isFloat (word : List Char) : Bool :=
  let (negative, rest) := cutSign word
  rest == "inf".toList || rest == "nan".toList || isUnsignedFloat (!negative) rest

/-- The number that two digits stand for, if it lies between two bounds. -/
def twoDigits? (least most : Nat) (first second : Char) : Option Nat :=
  if first.isDigit && second.isDigit then
    some (valueOf 10 [first, second]) |>.filter fun value => least ≤ value ∧ value ≤ most
  else none

/-- The number of days of a month. -/
def daysOf (year month : Nat) : Nat :=
  if month = 2 then
    if year % 4 = 0 ∧ (year % 100 ≠ 0 ∨ year % 400 = 0) then 29 else 28
  else if month = 4 ∨ month = 6 ∨ month = 9 ∨ month = 11 then 30
  else 31

/-- Whether a word is a date: year, month and day. -/
def isDate : List Char → Bool
  | [y₁, y₂, y₃, y₄, '-', m₁, m₂, '-', d₁, d₂] =>
      [y₁, y₂, y₃, y₄].all Char.isDigit &&
        match twoDigits? 1 12 m₁ m₂ with
        | some month => (twoDigits? 1 (daysOf (valueOf 10 [y₁, y₂, y₃, y₄]) month) d₁ d₂).isSome
        | none => false
  | _ => false

/-- Whether a text is hours and minutes. -/
def isHourMinute (h₁ h₂ m₁ m₂ : Char) : Bool :=
  (twoDigits? 0 23 h₁ h₂).isSome && (twoDigits? 0 59 m₁ m₂).isSome

/-- What follows a time at the start of a text: hours, minutes, seconds, and a
fraction of a second if there is one. A minute may have a leap second. -/
def afterTime? : List Char → Option (List Char)
  | h₁ :: h₂ :: ':' :: m₁ :: m₂ :: ':' :: s₁ :: s₂ :: rest =>
      if isHourMinute h₁ h₂ m₁ m₂ && (twoDigits? 0 60 s₁ s₂).isSome then
        match rest with
        | '.' :: fraction =>
            if (fraction.takeWhile Char.isDigit).isEmpty then none
            else some (fraction.dropWhile Char.isDigit)
        | _ => some rest
      else none
  | _ => none

/-- Whether a word is the offset of a time from that of the meridian. -/
def isOffset : List Char → Bool
  | ['Z'] | ['z'] => true
  | [sign, h₁, h₂, ':', m₁, m₂] => (sign == '+' || sign == '-') && isHourMinute h₁ h₂ m₁ m₂
  | _ => false

/-- The sign between a date and a time. -/
def isTimeMark (c : Char) : Bool :=
  c == 'T' || c == 't' || c == ' '

/-- Whether a word is a date, a time, or both, in which case it may have an
offset. -/
def isDateTime (word : List Char) : Bool :=
  isDate word || afterTime? word == some [] ||
    (isDate (word.take 10) &&
      match word.drop 10 with
      | mark :: time =>
          isTimeMark mark &&
            match afterTime? time with
            | some rest => rest.isEmpty || isOffset rest
            | none => false
      | [] => false)

/-- The characters that scalars other than text are made of. -/
def isWordChar (c : Char) : Bool :=
  c.isAlphanum || c == '+' || c == '-' || c == '_' || c == '.' || c == ':'

/-- The value of a word. -/
def scalar? (word : List Char) : Option Value :=
  if word == "true".toList then some (.boolean true)
  else if word == "false".toList then some (.boolean false)
  else if isDateTime word then some (.dateTime word)
  else if isFloat word then some (.float word)
  else (integer? word).map .integer

/-- Cut a word from the front of a text. A date takes with it the word behind a
single space, which can only be a time. -/
def cutWord (text : List Char) : List Char × List Char :=
  let (word, rest) := text.span isWordChar
  match rest with
  | ' ' :: next :: _ =>
      if isDate word && isWordChar next then
        let (time, rest) := (rest.drop 1).span isWordChar
        (word ++ ' ' :: time, rest)
      else (word, rest)
  | _ => (word, rest)

end JavaStructure.Toml
