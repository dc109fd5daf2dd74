/-
Module: SelectTree.Grammar.Source
Purpose: where rows come from: tables, subselects and joins.
Main exports: Grammar.relation, Grammar.source, Grammar.joinType
-/
import SelectTree.Grammar.Condition

namespace SelectTree.Grammar

open SelectTree.Parser

/-- The keyword of a side, perhaps `OUTER`, and `JOIN`. -/
def sideJoin (type : JoinType) : Parser JoinType := do
  skip 1
  let _ ← eatKeyword .OUTER
  let _ ← expectKeyword .JOIN
  return type

/-- The keywords of a join, or nothing. -/
def joinType : Parser (Option JoinType) := do
  match (← peek).map Word.kind with
  | some (.keyword .JOIN) =>
      skip 1
      return some .inner
  | some (.keyword .INNER) =>
      skip 1
      let _ ← expectKeyword .JOIN
      return some .inner
  | some (.keyword .LEFT) => return some (← sideJoin .left)
  | some (.keyword .RIGHT) => return some (← sideJoin .right)
  | some (.keyword .FULL) => return some (← sideJoin .full)
  | some (.keyword .CROSS) =>
      skip 1
      if ← eatKeyword .APPLY then return some .crossApply
      let _ ← expectKeyword .JOIN
      return some .cross
  | some (.keyword .OUTER) =>
      if ((← remaining).tail.head?.map Word.kind) = some (.keyword .APPLY) then
        skip 2
        return some .outerApply
      return none
  | _ => return none

/-- A dot and a further part of a table name, or nothing. -/
def tablePart : Parser (Option Identifier) := do
  if ← eat .dot then return some (← identifier "a name after '.'")
  return none

/-- A table name of up to three parts and perhaps an alias. -/
def table : Parser (Phrase .source) := do
  let some first ← peek | failHere "a table name"
  let name ← identifier "a table name"
  let others ← many tablePart
  let parts := name :: others
  if h : parts.length ≤ 3 then
    return .table { parts, parts_ne_nil := List.cons_ne_nil _ _, length_le := h }
      (← aliasName false)
  else failAt first (.longTableName parts)

/-- Reads `( relation )` or the statement of a subselect. -/
def bracketedSource (rules : Rules) : Parser (Sum Relation Statement) :=
  bracketed fun opening => do
    if (← remaining).isEmpty then failAt opening .emptyBrackets
    if ← startsStatement then return .inr (← rules.wholeStatement)
    return .inl (← wholly rules.relation)

/-- One source of rows: a table, a bracketed relation, or a subselect, which needs an alias. -/
def source (rules : Rules) : Parser (Phrase .source) := do
  if ← check .leftParen then
    match ← bracketedSource rules with
    | .inl inner => return .bracketedRelation inner
    | .inr statement =>
        match ← aliasName false with
        | some called => return .derived statement called
        | none => failHere "an alias for the subselect"
  else table

/-- A join and its source, or nothing. -/
def join (rules : Rules) : Parser (Option (Phrase .join)) := do
  match ← joinType with
  | none => return none
  | some type =>
      let source ← source rules
      if h : type.requiresOn = true then
        let _ ← expectKeyword .ON
        return some (.joinOn type h source (← rules.condition))
      else return some (.joinFree type (Bool.eq_false_iff.2 h) source)

/-- A source and any number of joins. -/
def relation (rules : Rules) : Parser Relation := do
  let left ← source rules
  return .relation left (.ofList (← many (join rules)))

end SelectTree.Grammar
