/-
# Line hashes

The listing by which duplicated code is found: every line, with its blanks
collapsed, is hashed, so that lines which differ in layout only have one hash.
-/

import JavaStructure.Text.Cut
import JavaStructure.Text.Decimal
import JavaStructure.Text.Units

namespace JavaStructure.LineHash

/-- Write one space for every run of breaking blanks. `fresh` says that the
character before was no blank, so that a blank starts a new run. -/
def collapse (fresh : Bool) : List Char → List Char
  | [] => []
  | c :: rest =>
      if Text.isBreakingBlank c then
        if fresh then ' ' :: collapse false rest else collapse false rest
      else c :: collapse true rest

/-- A line with every run of breaking blanks made one space, a run at its
start included. -/
def normalize (line : List Char) : List Char :=
  collapse true line

/-- Multiply by thirty-three and add, in thirty-two bits. -/
def mix (hash : UInt32) (unit : Nat) : UInt32 :=
  (hash <<< 5) + hash + UInt32.ofNat unit

/-- The hash of a text: the sixteen-bit units mixed into 5381 one by one. -/
def hash (text : List Char) : UInt32 :=
  (Text.units text).foldl mix 5381

/-- The hash read as a signed number. -/
def signedHash (text : List Char) : Int :=
  (hash text).toNat.toInt32.toInt

/-- The lines that are listed: all up to the last one that is not empty. -/
def listedLines (source : List Char) : List (List Char) :=
  ((source.splitOn '\n').reverse.dropWhile List.isEmpty).reverse

/-- One entry of the listing: the hash in base sixteen and the line's number. -/
def entry (line : List Char) (number : Nat) : String :=
  Text.hexadecimal (hash (normalize line)).toNat ++ " " ++ Text.decimal number ++ "\n"

/-- The listing of a source text. Lines are numbered from one. -/
def listing (source : String) : String :=
  String.join ((listedLines source.toList).zipIdx.map fun (line, index) =>
    entry line (index + 1))

end JavaStructure.LineHash
