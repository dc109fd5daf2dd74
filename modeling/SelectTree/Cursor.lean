/-
Module: SelectTree.Cursor
Purpose: a place in a stretch of words, for reading it step by step.
Main exports: Cursor, Cursor.rest, Cursor.advance, Cursor.restore, Cursor.takeGroup?
-/
import SelectTree.Words.Segment

namespace SelectTree

/-- A stretch of words and the number of them that are consumed. -/
structure Cursor where
  range : Words
  position : Nat
  /-- The cursor never leaves its range. -/
  position_le : position ≤ range.length := by omega
deriving Repr

namespace Cursor

instance : Inhabited Cursor := ⟨{ range := [], position := 0 }⟩

/-- A cursor at the first word. -/
def start (range : Words) : Cursor :=
  { range, position := 0 }

/-- Moves to a saved position, or to the end if the range is shorter. -/
def restore (cursor : Cursor) (position : Nat) : Cursor :=
  { range := cursor.range, position := min position cursor.range.length }

/-- Skips up to `count` words. -/
def advance (cursor : Cursor) (count : Nat) : Cursor :=
  cursor.restore (cursor.position + count)

/-- The words that are not consumed. -/
def rest (cursor : Cursor) : Words :=
  cursor.range.drop cursor.position

/-- Number of words that are not consumed. -/
def remaining (cursor : Cursor) : Nat :=
  cursor.range.length - cursor.position

/-- The cursor behind the words that a reader of the rest has consumed, when it left these. -/
def leaving (cursor : Cursor) (left : Words) : Cursor :=
  cursor.restore (cursor.range.length - left.length)

/-- The word `ahead` places behind the cursor. -/
def peek? (cursor : Cursor) (ahead : Nat) : Option Word :=
  cursor.rest[ahead]?

/-- The word `back` places before the last one, unless it is consumed. -/
def peekFromEnd? (cursor : Cursor) (back : Nat) : Option Word :=
  cursor.rest.reverse[back]?

/-- The next word and the cursor behind it. -/
def take? (cursor : Cursor) : Option (Word × Cursor) :=
  (cursor.peek? 0).map fun word => (word, cursor.advance 1)

/-- The bracket group at the cursor: its opening bracket, a cursor over its contents, and the
cursor behind it. -/
def takeGroup? (cursor : Cursor) : Option (Word × Cursor × Cursor) :=
  (Words.group? cursor.rest).map fun group =>
    (group.opening, start group.contents, cursor.leaving group.behind)

/-- The text up to the next comma outside of every bracket, and the cursor behind that comma. -/
def textUntilComma (cursor : Cursor) : String × Cursor :=
  let (text, left) := Words.textUntilComma cursor.rest
  (text, cursor.leaving left)

/-- The comma segments of all that is left, and the cursor at the end. -/
def splitCommas (cursor : Cursor) : List Words × Cursor :=
  (Words.splitCommas cursor.rest, cursor.leaving [])

/-- Cuts what is left at an offset from the cursor. -/
def splitAt (cursor : Cursor) (offset : Nat) : Words × Words :=
  cursor.rest.splitAt offset

end Cursor

end SelectTree
