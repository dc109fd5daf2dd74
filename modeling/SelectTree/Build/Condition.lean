/-
Module: SelectTree.Build.Condition
Purpose: conditions, added to a tree as they are read.
Main exports: Build.term, Build.condition, Build.bracketedCondition, Build.predicate

An opening bracket is tried as a condition.  If it turns out to hold none, `attempt` drops the
nodes of the trial, and the bracket is read again as a column to compare.
-/
import SelectTree.Build.Column
import SelectTree.Grammar.Condition

namespace SelectTree.Build

open SelectTree.Builder

/-- Reads `(SELECT ...)` behind a keyword. -/
def bracketedStatement (rules : Rules) (label : String) : Builder NodeId :=
  bracketed fun opening => do
    if !(← read Parser.startsStatement) then failAt opening (.requires label "a subselect")
    rules.wholeStatement

/-- Reads `( condition )`.  Brackets that cannot hold a condition say so. -/
def bracketedCondition (rules : Rules) : Builder NodeId :=
  bracketed fun opening => do
    if (← read Parser.remaining).isEmpty || (← read Parser.startsStatement) then
      read (Parser.fail { kind := .notACondition, cause := .noCondition, place := some opening })
    let inner ← wholly rules.condition
    add (.condition (.bracket (some inner)))

/-- The brackets behind `IN`: a statement or values. -/
def membership (rules : Rules) (column : NodeId) (negated : Bool) : Builder NodeId :=
  bracketed fun opening => do
    if ← read Parser.startsStatement then
      let statement ← rules.wholeStatement
      add (.condition (.inSelect (some column) negated (some statement)))
    else
      match ← segments rules.column with
      | [] => failAt opening (.requires "IN" "at least one value")
      | first :: others =>
          add (.condition (.inList (some column) negated (slots (first :: others))))

/-- The operator and the right side of a comparison.  Without an operator the words are not a
condition. -/
def comparison (rules : Rules) (left : NodeId) : Builder NodeId := do
  match (← read Parser.peek).bind fun word => Grammar.orderOperator? word.kind with
  | none =>
      let words ← read Parser.remaining
      read (Parser.fail (.expected .notACondition "a comparison" words))
  | some operator =>
      read (Parser.skip 1)
      match ← read Grammar.quantifier with
      | some quantifier =>
          let statement ← bracketedStatement rules quantifier.text
          let right ← add (.column (.subselect (some statement)))
          add (.condition (.setComparison (some left) operator.toComparison quantifier
            (some right)))
      | none =>
          let right ← rules.column
          add (.condition (.comparison (some left) operator.toComparison (some right)))

/-- What is said of a column: membership, range, pattern, absence or comparison. -/
def predicate (rules : Rules) : Builder NodeId := do
  let left ← column rules
  let negated ← read Grammar.negation
  if ← read (Parser.eatKeyword .IN) then membership rules left negated
  else if ← read (Parser.eatKeyword .BETWEEN) then
    let lower ← rules.column
    let _ ← read (Parser.expectKeyword .AND)
    let upper ← rules.column
    add (.condition (.between (some left) negated (some lower) (some upper)))
  else if ← read (Parser.eatKeyword .LIKE) then
    let right ← rules.column
    add (.condition (.comparison (some left) (if negated then .notLike else .like)
      (some right)))
  else if ← read (Parser.eatKeyword .IS) then
    let absent ← read (Parser.eatKeyword .NOT)
    let _ ← read (Parser.expectKeyword .NULL)
    add (.condition (.isNull (some left) absent))
  else comparison rules left

/-- A term that is not replaced by a hook. -/
def plainTerm (rules : Rules) : Builder NodeId := do
  if ← read (Parser.eatKeyword .NOT) then
    let term ← nested rules.term
    add (.condition (.not (some term)))
  else if ← read (Parser.eatKeyword .EXISTS) then
    let statement ← bracketedStatement rules "EXISTS"
    add (.condition (.exists (some statement)))
  else if ← read (Parser.check .leftParen) then
    match ← attempt (bracketedCondition rules) with
    | some found => return found
    | none => predicate rules
  else predicate rules

/-- One term of a condition. -/
def term (rules : Rules) : Builder NodeId := do
  match ← hooked Hooks.term with
  | some found => return found
  | none => plainTerm rules

/-- A connective and the term behind it, or nothing.  Behind a connective there is no doubt
that a condition is meant. -/
def link (rules : Rules) : Builder (Option NodeId) := do
  match (← read Parser.peek).bind fun word => Grammar.logicOperator? word.kind with
  | none => return none
  | some operator =>
      read (Parser.skip 1)
      let term ← committed (term rules)
      return some (← add (.element (.conditionLink operator (some term))))

/-- A condition: a term and any number of links. -/
def condition (rules : Rules) : Builder NodeId := do
  let left ← term rules
  let links ← many (link rules)
  if links.isEmpty then return left
  else add (.condition (.chain (some left) (slots links)))

end SelectTree.Build
