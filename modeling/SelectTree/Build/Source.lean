/-
Module: SelectTree.Build.Source
Purpose: tables, subselects and joins, added to a tree as they are read.
Main exports: Build.relation, Build.source
-/
import SelectTree.Build.Condition
import SelectTree.Grammar.Source

namespace SelectTree.Build

open SelectTree.Builder

/-- Reads `( relation )` or the statement of a subselect. -/
def bracketedSource (rules : Rules) : Builder (Sum NodeId NodeId) :=
  bracketed fun opening => do
    if (← read Parser.remaining).isEmpty then failAt opening .emptyBrackets
    if ← read Parser.startsStatement then
      let statement ← rules.wholeStatement
      return .inr statement
    else
      let inner ← wholly rules.relation
      return .inl inner

/-- One source of rows: a table, a bracketed relation, or a subselect, which needs an alias. -/
def source (rules : Rules) : Builder NodeId := do
  if ← read (Parser.check .leftParen) then
    match ← bracketedSource rules with
    | .inl inner => add (.relation (.bracket (some inner)))
    | .inr statement =>
        match ← read (Parser.aliasName false) with
        | some called => add (.relation (.subselect (some statement) called))
        | none => failHere "an alias for the subselect"
  else leaf Grammar.table

/-- A join and its source, or nothing. -/
def join (rules : Rules) : Builder (Option NodeId) := do
  match ← read Grammar.joinType with
  | none => return none
  | some type =>
      let source ← source rules
      if type.requiresOn then
        let _ ← read (Parser.expectKeyword .ON)
        let condition ← rules.condition
        return some (← add (.element (.join type (some source) (some condition))))
      else return some (← add (.element (.join type (some source) none)))

/-- A source and any number of joins. -/
def relation (rules : Rules) : Builder NodeId := do
  let left ← source rules
  let joins ← many (join rules)
  if joins.isEmpty then return left
  else add (.relation (.joinChain (some left) (slots joins)))

end SelectTree.Build
