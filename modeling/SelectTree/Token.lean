/-
Module: SelectTree.Token
Purpose: tokens: what was written, of which kind, and where.
Main exports: Span, TokenKind, TokenCategory, Token
-/
import SelectTree.Keyword

namespace SelectTree

/-- A range of byte offsets of the source: from `start` up to, but not including, `stop`. -/
structure Span where
  start : Nat
  stop : Nat
deriving Repr, Inhabited, DecidableEq

namespace Span

/-- Number of bytes. -/
def length (span : Span) : Nat :=
  span.stop - span.start

/-- The span holds no byte. -/
def isEmpty (span : Span) : Bool :=
  span.start == span.stop

/-- The next span starts where this one stops. -/
def touches (span next : Span) : Bool :=
  span.stop == next.start

end Span

/-- What a token is, with the value that its text stands for. -/
inductive TokenKind where
  | integer (value : Int)
  /-- A number with a fraction or an exponent, or a digit run past 63 bits, as written. -/
  | decimal (text : String)
  /-- Written `'...'`.  The value has its doubled quotes undone, as in the other kinds of
  quoting. -/
  | string (value : String)
  /-- Written `N'...'`. -/
  | nationalString (value : String)
  | identifier (name : String)
  /-- Written `[name]` or `"name"`. -/
  | delimitedIdentifier (name : String)
  /-- Written `@name` or `@@name`; the name keeps its signs. -/
  | variable (name : String)
  | keyword (keyword : Keyword)
  | plus
  | minus
  | star
  | slash
  | percent
  | concat
  | eq
  | notEq
  | lt
  | ltEq
  | gt
  | gtEq
  | leftParen
  | rightParen
  | leftBrace
  | rightBrace
  | comma
  | semicolon
  | dot
  | whitespace
  | comment
  /-- Text that is no token, with the complaint about it. -/
  | error (message : String)
deriving Repr, Inhabited, DecidableEq

/-- Coarse groups of token kinds. -/
inductive TokenCategory where
  | keyword
  | identifier
  | operator
  | literal
  | whitespace
  | character
deriving Repr, Inhabited, DecidableEq

namespace TokenKind

/-- The group of a kind.  Punctuation and text that is no token are single characters. -/
def category : TokenKind → TokenCategory
  | .keyword _ => .keyword
  | .identifier _ | .delimitedIdentifier _ | .variable _ => .identifier
  | .integer _ | .decimal _ | .string _ | .nationalString _ => .literal
  | .plus | .minus | .star | .slash | .percent | .concat => .operator
  | .eq | .notEq | .lt | .ltEq | .gt | .gtEq => .operator
  | .whitespace | .comment => .whitespace
  | .leftParen | .rightParen | .leftBrace | .rightBrace => .character
  | .comma | .semicolon | .dot | .error _ => .character

/-- White space and comments separate tokens and mean nothing else. -/
def isTrivia : TokenKind → Bool
  | .whitespace | .comment => true
  | _ => false

/-- The complaint of text that is no token. -/
def complaint? : TokenKind → Option String
  | .error message => some message
  | _ => none

end TokenKind

/-- A token: its kind, the source text it covers, and where that text stands. -/
structure Token where
  kind : TokenKind
  text : String
  span : Span
deriving Repr, Inhabited, DecidableEq

end SelectTree
