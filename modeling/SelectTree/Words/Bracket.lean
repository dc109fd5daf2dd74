/-
Module: SelectTree.Words.Bracket
Purpose: bracket groups and what is outside of every bracket in a sequence of words.
Main exports: Words.Group, Words.group?, Words.breakTop, Words.firstKeyword?, Words.lastKeyword?

Depth is counted from the beginning of the sequence and never goes below zero, so a closing
bracket without partner changes nothing.
-/
import SelectTree.Word

namespace SelectTree.Words

/-- A bracket group at the front of a sequence of words. -/
structure Group where
  /-- The opening bracket. -/
  opening : Word
  /-- What stands between the brackets. -/
  contents : Words
  /-- What follows the closing bracket. -/
  behind : Words
deriving Repr, Inhabited, DecidableEq

/-- Cuts a sequence at the closing bracket that has no opening bracket before it, when as many
brackets as the first argument says are still open. -/
def closeGroup? : Nat → Words → Option (Words × Words)
  | _, [] => none
  | depth, word :: words =>
      let keep : Words × Words → Words × Words := fun (inside, behind) => (word :: inside, behind)
      match word.kind, depth with
      | .leftParen, depth => (closeGroup? (depth + 1) words).map keep
      | .rightParen, 0 => some ([], words)
      | .rightParen, depth + 1 => (closeGroup? depth words).map keep
      | _, depth => (closeGroup? depth words).map keep

/-- The bracket group at the front, if there is an opening bracket that is closed. -/
def group? : Words → Option Group
  | [] => none
  | opening :: words =>
      if opening.kind = .leftParen then
        (closeGroup? 0 words).map fun (contents, behind) => { opening, contents, behind }
      else none

/-- The depth behind a word of the given kind. -/
def depthBehind (depth : Nat) : TokenKind → Nat
  | .leftParen => depth + 1
  | .rightParen => depth - 1
  | _ => depth

/-- A bracket is never itself at the top level. -/
def isBracket : TokenKind → Bool
  | .leftParen | .rightParen => true
  | _ => false

/-- Cuts a sequence, which begins at the given depth, in front of the first word of a class that
is outside of every bracket. -/
def breakTopFrom (isMember : Word → Bool) : Nat → Words → Words × Words
  | _, [] => ([], [])
  | depth, word :: words =>
      if depth = 0 && !isBracket word.kind && isMember word then ([], word :: words)
      else
        let (front, back) := breakTopFrom isMember (depthBehind depth word.kind) words
        (word :: front, back)

/-- Cuts a sequence in front of the first word of a class that is outside of every bracket.  If
there is none, the second part is empty. -/
def breakTop (isMember : Word → Bool) (words : Words) : Words × Words :=
  breakTopFrom isMember 0 words

/-- The place of the first occurrence of a keyword outside of every bracket. -/
def firstKeyword? (keyword : Keyword) (words : Words) : Option Nat :=
  match breakTop (·.isKeyword keyword) words with
  | (_, []) => none
  | (front, _ :: _) => some front.length

/-- The number of words behind the last occurrence of a keyword outside of every bracket, for
the words in reverse order.  Walking backwards a closing bracket opens a group. -/
def keywordFromEnd? (keyword : Keyword) : Nat → Words → Option Nat
  | _, [] => none
  | depth, word :: words =>
      match word.kind with
      | .rightParen => (keywordFromEnd? keyword (depth + 1) words).map (· + 1)
      | .leftParen => (keywordFromEnd? keyword (depth - 1) words).map (· + 1)
      | kind =>
          if depth = 0 && kind == .keyword keyword then some 0
          else (keywordFromEnd? keyword depth words).map (· + 1)

/-- The place of the last occurrence of a keyword outside of every bracket, found from the
end. -/
def lastKeyword? (keyword : Keyword) (words : Words) : Option Nat :=
  (keywordFromEnd? keyword 0 words.reverse).map fun behind => words.length - 1 - behind

end SelectTree.Words
