/-
Module: SelectTree.Proofs.Written.Turn
Purpose: whether an operand or an operator is next, as the tokens tell without any grammar.
Main exports: Turn, Turn.ended, Turn.behind, Turns, Turns.behind, Turns.signed_behind_iff

Operands and operators take turns.  Behind the end of an operand a minus sign is an operator, and
anywhere else it is a prefix.  Mostly the token in front decides.  It does not behind the count of a
`TOP`, where another operand begins; for a star, which is an operand or an operator; and for
keywords that are names in one place and words of a clause in another.
-/
import SelectTree.Token

namespace SelectTree

/-- What is next. -/
inductive Turn where
  /-- An operand may begin. -/
  | operand
  /-- A count begins, directly behind `TOP`.  Behind it an operand may begin. -/
  | count
  /-- Directly behind a keyword that takes an unreserved one with it. -/
  | clause
  /-- An operand has ended. -/
  | operator
deriving Repr, Inhabited, DecidableEq

namespace Turn

/-- Behind an operand that began. -/
def ended : Turn → Turn
  | .count => .operand
  | _ => .operator

/-- Behind a keyword. -/
def behindKeyword (turn : Turn) (keyword : Keyword) : Turn :=
  match keyword with
  | .TOP => .count
  | .FETCH | .WITH | .CROSS | .OUTER => .clause
  | .NULL | .END | .ASC | .DESC => .operator
  -- A name, or the beginning of a clause behind the items of an order.
  | .OFFSET =>
      match turn with
      | .operator | .clause => .operand
      | _ => .operator
  | keyword =>
      if keyword.isReserved then .operand
      else
        match turn with
        | .clause => .operand
        | _ => .operator

/-- Behind a token that is no bracket. -/
def behind (turn : Turn) (kind : TokenKind) : Turn :=
  match kind with
  | .integer _ | .decimal _ | .string _ | .nationalString _ | .variable _ | .identifier _
  | .delimitedIdentifier _ => turn.ended
  | .star =>
      match turn with
      | .operator => .operand
      | _ => .operator
  | .keyword keyword => turn.behindKeyword keyword
  | _ => .operand

end Turn

/-- A place in some tokens. -/
structure Turns where
  turn : Turn
  /-- A minus sign that is a prefix is directly in front. -/
  signed : Bool
  /-- What was next in front of each bracket that is open, the innermost first. -/
  opened : List Turn
deriving Repr, Inhabited, DecidableEq

namespace Turns

/-- In front of all tokens. -/
def start : Turns :=
  { turn := .operand, signed := false, opened := [] }

/-- Behind a token.  A bracket as a whole is an operand or belongs to the one in front of it. -/
def behind (turns : Turns) (kind : TokenKind) : Turns :=
  match kind with
  | .leftParen => { turn := .operand, signed := false, opened := turns.turn :: turns.opened }
  | .rightParen =>
      { turn := (turns.opened.headD .operand).ended, signed := false, opened := turns.opened.tail }
  | .minus => { turns with turn := .operand, signed := turns.turn != .operator }
  | kind => { turns with turn := turns.turn.behind kind, signed := false }

/-- A prefix is directly in front exactly behind a minus sign where no operand has ended. -/
theorem signed_behind_iff {turns : Turns} {kind : TokenKind} :
    (turns.behind kind).signed = true ↔ kind = .minus ∧ turns.turn ≠ .operator := by
  cases kind <;> simp [behind]

end Turns

end SelectTree
