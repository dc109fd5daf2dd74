/-
Module: SelectTree.Cursor.Bracketed
Purpose: taking the bracket group at a cursor word by word, with a count of the open brackets.
Main exports: Cursor.Mishap, Cursor.Action, Cursor.closingFrom, Cursor.takeBracketed

The count is a natural number and the group is cut out of the range by two places, so each closing
bracket and each cut could go wrong.  Here they do go wrong where they would, and it is left to
proofs that this never happens.
-/
import SelectTree.Cursor

namespace SelectTree.Cursor

/-- What must not happen to a cursor. -/
inductive Mishap where
  /-- A bracket is closed when the count of open ones is zero. -/
  | belowZero
  /-- A place is outside of the range. -/
  | outside
deriving Repr, Inhabited, DecidableEq

/-- Something that is done with one cursor. -/
abbrev Action (α : Type) := EStateM Mishap Cursor α

/-- The count of open brackets when one of them is closed. -/
def countDown : Nat → Action Nat
  | 0 => throw .belowZero
  | depth + 1 => return depth

/-- How far the closing bracket is at which the count is back to zero, when the words begin with
that many open brackets and are that far themselves. -/
def closingFrom : Nat → Nat → Words → Action (Option Nat)
  | _, _, [] => return none
  | depth, offset, word :: words => do
      match word.kind with
      | .leftParen => closingFrom (depth + 1) (offset + 1) words
      | .rightParen =>
          match ← countDown depth with
          | 0 => return some offset
          | left => closingFrom left (offset + 1) words
      | _ => closingFrom depth (offset + 1) words

/-- Moves to a place of the range, or to its end. -/
def moveTo (position : Nat) : Action Unit := do
  let cursor ← get
  if inside : position ≤ cursor.range.length then
    set { cursor with position, position_le := inside }
  else throw .outside

/-- The words of the range from one place up to another. -/
def between (first last : Nat) : Action Words := do
  let range := (← get).range
  if first ≤ last ∧ last ≤ range.length then return (range.take last).drop first
  else throw .outside

/-- Consumes the bracket group at the cursor.  Gives its opening bracket and a cursor over its
contents; nothing if there is no group. -/
def takeBracketed : Action (Option (Word × Cursor)) := do
  let cursor ← get
  let some opening := cursor.peek? 0 | return none
  if opening.kind ≠ .leftParen then return none
  let some offset ← closingFrom 0 0 cursor.rest | return none
  let closing := cursor.position + offset
  moveTo (closing + 1)
  return some (opening, start (← between (cursor.position + 1) closing))

end SelectTree.Cursor
