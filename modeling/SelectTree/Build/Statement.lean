/-
Module: SelectTree.Build.Statement
Purpose: whole queries, added to a tree as they are read.
Main exports: Build.statement, Build.select, Build.block, Build.cte
-/
import SelectTree.Build.Clause
import SelectTree.Build.Source
import SelectTree.Grammar.Statement

namespace SelectTree.Build

open SelectTree.Builder

/-- What may stand between `SELECT` and the columns, in any order. -/
inductive Modifier where
  | distinct
  | all
  | top (top : NodeId)

/-- The modifiers of a select block; of `DISTINCT` and `ALL` the last one counts. -/
structure Modifiers where
  top : Slot := none
  distinct : Bool := false

/-- The modifiers with one more. -/
def Modifiers.add (modifiers : Modifiers) : Modifier → Modifiers
  | .distinct => { modifiers with distinct := true }
  | .all => { modifiers with distinct := false }
  | .top top => { modifiers with top := some top }

/-- The next modifier, or nothing.  There is at most one `TOP`. -/
def modifier (rules : Rules) (modifiers : Modifiers) : Builder (Option Modifier) := do
  if ← read (Parser.eatKeyword .DISTINCT) then return some .distinct
  if ← read (Parser.eatKeyword .ALL) then return some .all
  match modifiers.top with
  | none =>
      if ← read (Parser.checkKeyword .TOP) then return some (.top (← top rules)) else return none
  | some _ => return none

/-- All modifiers in front of the columns, at most as many as the first argument says. -/
def modifiersUpTo (rules : Rules) : Nat → Modifiers → Builder Modifiers
  | 0, modifiers => return modifiers
  | count + 1, modifiers => do
      match ← modifier rules modifiers with
      | none => return modifiers
      | some next => modifiersUpTo rules count (modifiers.add next)

/-- All modifiers in front of the columns; each takes at least one word. -/
def modifiers (rules : Rules) : Builder Modifiers := do
  modifiersUpTo rules (← read Parser.remaining).length {}

/-- A clause that its first keyword announces. -/
def clause (keyword : Keyword) (body : Builder NodeId) : Builder Slot := do
  if ← read (Parser.checkKeyword keyword) then return some (← body)
  return none

/-- What a keyword announces and precedes. -/
def behind (keyword : Keyword) (body : Builder NodeId) : Builder Slot := do
  if ← read (Parser.eatKeyword keyword) then return some (← body)
  return none

/-- Reads `FROM` and the relations behind it, or nothing. -/
def sources (rules : Rules) : Builder (List NodeId) := do
  if !(← read (Parser.eatKeyword .FROM)) then return []
  let (first, others) ← commaList rules.relation
  return first :: others

/-- A select block, from `SELECT` to `HAVING`. -/
def block (rules : Rules) (operator : Option SetOperator) : Builder NodeId := do
  let _ ← read (Parser.expectKeyword .SELECT)
  let modifiers ← modifiers rules
  let (first, others) ← commaList (selectColumn rules.column)
  let sources ← sources rules
  let pivot ← clause .PIVOT (pivot rules)
  let filter ← behind .WHERE rules.condition
  let groupBy ← clause .GROUP (groupBy rules)
  let having ← behind .HAVING rules.condition
  add (.select operator modifiers.top modifiers.distinct (slots (first :: others))
    (slots sources) pivot filter groupBy having)

/-- A select block by itself. -/
def select (rules : Rules) : Builder NodeId :=
  committed (block rules none)

/-- A set operator and the block behind it, or nothing. -/
def chainedBlock (rules : Rules) : Builder (Option NodeId) := do
  match ← read Grammar.setOperator with
  | none => return none
  | some operator => return some (← block rules (some operator))

/-- The bracketed statement of a named subquery. -/
def cteStatement (rules : Rules) (name : Identifier) : Builder NodeId :=
  bracketed fun opening => do
    if !(← read Parser.startsStatement) then
      failAt opening (.requires s!"CTE '{name.render}'" "a select statement")
    rules.wholeStatement

/-- Reads `name [(columns)] AS (statement)`. -/
def cte (rules : Rules) : Builder NodeId := do
  let name ← read (Parser.identifier "a CTE name")
  let columns ← if ← read (Parser.check .leftParen) then read Grammar.columnNames else pure []
  let _ ← read (Parser.expectKeyword .AS)
  let statement ← cteStatement rules name
  add (.element (.cte name columns (some statement)))

/-- Reads `WITH` and the named subqueries behind it, or nothing. -/
def ctes (rules : Rules) : Builder (List NodeId) := do
  if !(← read (Parser.eatKeyword .WITH)) then return []
  let (first, others) ← commaList (cte rules)
  return first :: others

/-- Reads `[WITH ctes] block {operator block} [ORDER BY ...] [OPTION (...)]`. -/
def statementBody (rules : Rules) : Builder NodeId := do
  let ctes ← ctes rules
  let first ← block rules none
  let others ← many (chainedBlock rules)
  let orderBy ← clause .ORDER (orderBy rules)
  let options ← clause .OPTION optionHints
  add (.statement (slots ctes) (slots (first :: others)) orderBy options)

/-- A statement is a settled shape. -/
def statement (rules : Rules) : Builder NodeId :=
  committed (statementBody rules)

end SelectTree.Build
