/-
Module: SelectTree.Character.Class
Purpose: the character classes that the lexer tells apart, and the numbers that runs of decimal
  digits stand for.
Main exports: isBlank, isAlphabetic, isNumeric, startsName, continuesName, Decimal.value
-/
import SelectTree.Character.Alphabetic
import SelectTree.Character.Numeric

namespace SelectTree.Character

/-- Closed ranges of the code points with the property White_Space. -/
def blankRanges : List (Nat × Nat) :=
  [(0x9, 0xD), (0x20, 0x20), (0x85, 0x85), (0xA0, 0xA0), (0x1680, 0x1680),
  (0x2000, 0x200A), (0x2028, 0x2029), (0x202F, 0x202F), (0x205F, 0x205F), (0x3000, 0x3000)]

/-- A code point lies in one of the closed ranges. -/
def inRanges (ranges : List (Nat × Nat)) (codePoint : Nat) : Bool :=
  ranges.any fun range => range.1 ≤ codePoint && codePoint ≤ range.2

/-- White space in the sense of the property White_Space. -/
def isBlank (c : Char) : Bool :=
  inRanges blankRanges c.toNat

/-- A letter in the sense of the property Alphabetic.  Below 128 these are the letters of the
Latin alphabet. -/
def isAlphabetic (c : Char) : Bool :=
  if c.toNat < 128 then c.isAlpha else inRanges alphabeticRanges c.toNat

/-- A character of category Nd, Nl or No.  Below 128 these are the ten digits. -/
def isNumeric (c : Char) : Bool :=
  if c.toNat < 128 then c.isDigit else inRanges numericRanges c.toNat

/-- A name may begin with this character. -/
def startsName (c : Char) : Bool :=
  isAlphabetic c || c == '_' || c == '#'

/-- A name may go on with this character. -/
def continuesName (c : Char) : Bool :=
  isAlphabetic c || isNumeric c || c == '_' || c == '#' || c == '$' || c == '@'

/-- Every first character of a name may also stand inside one. -/
theorem continuesName_of_startsName {c : Char} (h : startsName c = true) :
    continuesName c = true := by
  simp only [startsName, continuesName, Bool.or_eq_true] at h ⊢
  grind

end SelectTree.Character

namespace SelectTree.Decimal

/-- The value of a sequence of decimal digits, the first of which weighs most. -/
def value (digits : List Char) : Nat :=
  digits.foldl (fun value digit => 10 * value + (digit.toNat - '0'.toNat)) 0

/-- The least number that a signed word of 64 bits cannot hold. -/
def wordLimit : Nat :=
  0x8000000000000000

end SelectTree.Decimal
