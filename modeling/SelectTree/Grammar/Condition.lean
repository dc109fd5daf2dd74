/-
Module: SelectTree.Grammar.Condition
Purpose: conditions: predicates, brackets and chains.
Main exports: Grammar.term, Grammar.condition, Grammar.bracketedCondition, Grammar.predicate

`AND` and `OR` have equal rank: a chain of terms is flat and only brackets group.  An opening
bracket may begin a condition or a column to compare; it is read as a condition first, and as a
column if the words then turn out not to be a condition.
-/
import SelectTree.Grammar.Column

namespace SelectTree.Grammar

open SelectTree.Parser

/-- The order operator that a word of this kind is. -/
def orderOperator? : TokenKind → Option OrderOperator
  | .eq => some .eq
  | .notEq => some .notEq
  | .lt => some .lt
  | .ltEq => some .ltEq
  | .gt => some .gt
  | .gtEq => some .gtEq
  | _ => none

/-- The connective that a word of this kind is. -/
def logicOperator? : TokenKind → Option LogicOperator
  | .keyword .AND => some .and
  | .keyword .OR => some .or
  | _ => none

/-- Reads `(SELECT ...)` behind a keyword. -/
def bracketedStatement (rules : Rules) (label : String) : Parser Statement :=
  bracketed fun opening => do
    if !(← startsStatement) then failAt opening (.requires label "a subselect")
    rules.wholeStatement

/-- Reads `( condition )`.  Brackets that cannot hold a condition say so. -/
def bracketedCondition (rules : Rules) : Parser Term :=
  bracketed fun opening => do
    if (← remaining).isEmpty || (← startsStatement) then
      fail { kind := .notACondition, cause := .noCondition, place := some opening }
    return .bracketedCondition (← wholly rules.condition)

/-- Reads `NOT` in front of `IN`, `BETWEEN` or `LIKE`. -/
def negation : Parser Bool := do
  if !(← checkKeyword .NOT) then return false
  match (← remaining).tail.head?.map Word.kind with
  | some (.keyword .IN) | some (.keyword .BETWEEN) | some (.keyword .LIKE) =>
      skip 1
      return true
  | _ => return false

/-- The brackets behind `IN`: a statement or values. -/
def membership (rules : Rules) (column : Column) (negated : Bool) : Parser Term :=
  bracketed fun opening => do
    if ← startsStatement then return .inSelect column negated (← rules.wholeStatement)
    match ← segments rules.column with
    | [] => failAt opening (.requires "IN" "at least one value")
    | first :: others => return .inList column negated first (.ofList others)

/-- Reads `ANY`, `SOME` or `ALL`. -/
def quantifier : Parser (Option Quantifier) := do
  if ← eatKeyword .ANY then return some .any
  if ← eatKeyword .SOME then return some .any
  if ← eatKeyword .ALL then return some .all
  return none

/-- The operator and the right side of a comparison.  Without an operator the words are not a
condition. -/
def comparison (rules : Rules) (left : Column) : Parser Term := do
  match (← peek).bind fun word => orderOperator? word.kind with
  | none => fail (.expected .notACondition "a comparison" (← remaining))
  | some operator =>
      skip 1
      match ← quantifier with
      | some quantifier =>
          return .setComparison left operator quantifier
            (← bracketedStatement rules quantifier.text)
      | none => return .comparison left operator (← rules.column)

/-- What is said of a column: membership, range, pattern, absence or comparison. -/
def predicate (rules : Rules) : Parser Term := do
  let left ← column rules
  let negated ← negation
  if ← eatKeyword .IN then membership rules left negated
  else if ← eatKeyword .BETWEEN then
    let lower ← rules.column
    let _ ← expectKeyword .AND
    return .between left negated lower (← rules.column)
  else if ← eatKeyword .LIKE then
    return .like left negated (← rules.column)
  else if ← eatKeyword .IS then
    let absent ← eatKeyword .NOT
    let _ ← expectKeyword .NULL
    return .isNull left absent
  else comparison rules left

/-- A term that is not replaced by a hook. -/
def plainTerm (rules : Rules) : Parser Term := do
  if ← eatKeyword .NOT then return .not (← nested rules.term)
  else if ← eatKeyword .EXISTS then return .exists (← bracketedStatement rules "EXISTS")
  else if ← check .leftParen then
    match ← attempt (bracketedCondition rules) with
    | some found => return found
    | none => predicate rules
  else predicate rules

/-- One term of a condition. -/
def term (rules : Rules) : Parser Term := do
  match ← hooked Hooks.term with
  | some found => return found
  | none => plainTerm rules

/-- A connective and the term behind it, or nothing.  Behind a connective there is no doubt
that a condition is meant. -/
def link (rules : Rules) : Parser (Option (Phrase .link)) := do
  match (← peek).bind fun word => logicOperator? word.kind with
  | none => return none
  | some operator =>
      skip 1
      return some (.link operator (← committed (term rules)))

/-- A condition: a term and any number of links. -/
def condition (rules : Rules) : Parser Condition := do
  let left ← term rules
  return .condition left (.ofList (← many (link rules)))

end SelectTree.Grammar
