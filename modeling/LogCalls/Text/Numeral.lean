import LogCalls.Text.Basic

/-! # Digits and other numerals

`isDecimalDigit` holds of the decimal digits of every script (general category `Nd`) as of version 16
of Unicode, `isNumeral` of all number characters (categories `Nd`, `Nl` and `No`).

Version 17 added letters, marks and digits. Identifiers and diagnostics know them; method patterns,
message patterns and format texts are read as of version 16 and do not (`isRecent`). -/

namespace LogCalls.Text

/-- Code points of letters, marks and digits that are new in version 17. -/
def recentRanges : List (Nat × Nat) := rangesFrom 0
  [2191, 1, 972, 1, 127, 1, 3570, 15, 2, 12, 36066, 2, 2, 1, 1, 1, 28, 1, 24910, 26, 1387, 3, 50, 2,
   3172, 8, 584, 44, 4, 10, 20662, 25, 2, 25, 286, 5, 6145, 8, 1289, 22, 97, 115, 22733, 31, 1, 22,
   8, 2, 53306, 6, 5986, 12, 21762, 4298]

/-- The character is a letter, mark or digit that is new in version 17. -/
def isRecent (c : Char) : Bool := inRanges recentRanges c

/-- Code points of decimal digits. -/
def decimalDigitRanges : List (Nat × Nat) := rangesFrom 0
  [48, 10, 1574, 10, 134, 10, 198, 10, 412, 10, 118, 10, 118, 10, 118, 10, 118, 10, 118, 10,
   118, 10, 118, 10, 118, 10, 118, 10, 96, 10, 118, 10, 70, 10, 278, 10, 70, 10, 1862, 10, 38, 10,
   300, 10, 128, 10, 166, 10, 6, 10, 182, 10, 86, 10, 134, 10, 6, 10, 35270, 10, 678, 10, 38, 10,
   198, 10, 22, 10, 86, 10, 406, 10, 21270, 10, 1414, 10, 2182, 10, 6, 10, 796, 10, 128, 10, 60, 10,
   144, 10, 278, 10, 342, 10, 118, 10, 374, 10, 102, 10, 6, 20, 76, 10, 422, 10, 102, 10, 662, 10,
   86, 10, 246, 10, 70, 10, 54, 10, 358, 10, 16854, 10, 2342, 10, 86, 10, 134, 10, 534, 10,
   24438, 10, 2772, 50, 2368, 10, 422, 10, 502, 10, 247, 10, 853, 10, 4758, 10]

/-- Code points of letter-like and other numbers, such as Roman numerals and superscripts. -/
def otherNumeralRanges : List (Nat × Nat) := rangesFrom 0
  [178, 2, 5, 1, 2, 3, 2357, 6, 376, 6, 120, 3, 133, 7, 217, 7, 17, 9, 433, 10, 1077, 20, 881, 3,
   255, 10, 480, 1, 1685, 1, 3, 6, 6, 10, 198, 51, 2, 5, 726, 60, 78, 22, 630, 30, 1385, 1, 777, 1,
   25, 9, 14, 3, 343, 4, 138, 10, 30, 8, 1, 15, 32, 10, 39, 15, 29734, 10, 320, 6, 22737, 45,
   12, 57, 17, 2, 341, 27, 36, 4, 29, 1, 8, 1, 134, 5, 1154, 8, 25, 7, 39, 9, 75, 5, 22, 6, 160, 2,
   2, 16, 2, 46, 64, 9, 52, 2, 30, 3, 75, 5, 104, 8, 24, 8, 41, 7, 330, 6, 352, 31, 158, 10, 42, 4,
   112, 7, 134, 20, 379, 20, 1349, 2, 430, 9, 871, 19, 851, 21, 1067, 111, 18156, 7, 798, 23,
   349, 3, 25289, 20, 12, 20, 108, 25, 5454, 9, 929, 59, 1, 3, 1, 4, 76, 45, 1, 15, 962, 13]

/-- The character is a decimal digit of some script, as of version 16 of Unicode. -/
def isDecimalDigit (c : Char) : Bool := inRanges decimalDigitRanges c && !isRecent c

/-- The character is a number of some kind. -/
def isNumeral (c : Char) : Bool :=
  inRanges decimalDigitRanges c || inRanges otherNumeralRanges c

end LogCalls.Text
