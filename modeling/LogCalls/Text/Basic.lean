/-! # Characters and plain numbers

A character property is given by a table of code points. `trim` takes blanks off both ends of a text,
and `decimal?` reads natural numbers as written with the ten ASCII digits. -/

namespace LogCalls.Text

/-! ## Tables -/

/-- The code point of a character lies in one of the closed ranges of a table. -/
def inRanges (ranges : List (Nat × Nat)) (c : Char) : Bool :=
  ranges.any fun (first, last) => first ≤ c.toNat && c.toNat ≤ last

@[simp] theorem inRanges_nil (c : Char) : inRanges [] c = false := rfl

@[simp] theorem inRanges_cons (first last : Nat) (ranges : List (Nat × Nat)) (c : Char) :
    inRanges ((first, last) :: ranges) c =
      ((first ≤ c.toNat && c.toNat ≤ last) || inRanges ranges c) := rfl

/-- The closed ranges of a table of lengths: by turns, how many code points lie between two ranges and
how many are in the next one. -/
def rangesFrom (start : Nat) : List Nat → List (Nat × Nat)
  | gap :: size :: rest =>
    (start + gap, start + gap + size - 1) :: rangesFrom (start + gap + size) rest
  | _ => []

/-! ## Blanks -/

/-- Code points with the property `White_Space`. -/
def blankRanges : List (Nat × Nat) :=
  [(0x9, 0xd), (0x20, 0x20), (0x85, 0x85), (0xa0, 0xa0), (0x1680, 0x1680), (0x2000, 0x200a),
   (0x2028, 0x2029), (0x202f, 0x202f), (0x205f, 0x205f), (0x3000, 0x3000)]

/-- The character is white space. -/
def isBlank (c : Char) : Bool := inRanges blankRanges c

/-- The text without the blanks at its start and at its end. -/
def trim (chars : List Char) : List Char :=
  ((chars.dropWhile isBlank).reverse.dropWhile isBlank).reverse

/-! ## Decimal numbers -/

/-- The number that digits spell. -/
def decimalValue (digits : List Char) : Nat :=
  digits.foldl (fun value digit => 10 * value + (digit.toNat - '0'.toNat)) 0

/-- The number that a text spells, if it holds nothing but digits. -/
def decimal? (chars : List Char) : Option Nat :=
  if chars.all Char.isDigit then some (decimalValue chars) else none

/-- The first number that takes more than 64 bits. -/
def wordLimit : Nat := 0x10000000000000000

end LogCalls.Text
