/-
Module: SelectTree.Grammar.Statement
Purpose: whole queries: named subqueries, select blocks, set operators.
Main exports: Grammar.statement, Grammar.select, Grammar.block, Grammar.cte
-/
import SelectTree.Grammar.Clause
import SelectTree.Grammar.Source

namespace SelectTree.Grammar

open SelectTree.Parser

/-- What may stand between `SELECT` and the columns, in any order. -/
inductive Modifier where
  | distinct
  | all
  | top (top : Phrase .top)

/-- The modifiers of a select block; of `DISTINCT` and `ALL` the last one counts. -/
structure Modifiers where
  top : Perhaps .top := .absent
  distinct : Bool := false

/-- The modifiers with one more. -/
def Modifiers.add (modifiers : Modifiers) : Modifier → Modifiers
  | .distinct => { modifiers with distinct := true }
  | .all => { modifiers with distinct := false }
  | .top top => { modifiers with top := .present top }

/-- The next modifier, or nothing.  There is at most one `TOP`. -/
def modifier (rules : Rules) (modifiers : Modifiers) : Parser (Option Modifier) := do
  if ← eatKeyword .DISTINCT then return some .distinct
  if ← eatKeyword .ALL then return some .all
  match modifiers.top with
  | .absent => if ← checkKeyword .TOP then return some (.top (← top rules)) else return none
  | .present _ => return none

/-- All modifiers in front of the columns, at most as many as the first argument says. -/
def modifiersUpTo (rules : Rules) : Nat → Modifiers → Parser Modifiers
  | 0, modifiers => return modifiers
  | count + 1, modifiers => do
      match ← modifier rules modifiers with
      | none => return modifiers
      | some next => modifiersUpTo rules count (modifiers.add next)

/-- All modifiers in front of the columns; each takes at least one word. -/
def modifiers (rules : Rules) : Parser Modifiers := do
  modifiersUpTo rules (← remaining).length {}

/-- A clause that its first keyword announces. -/
def clause {form : Form} (keyword : Keyword) (body : Parser (Phrase form)) :
    Parser (Perhaps form) := do
  if ← checkKeyword keyword then return .present (← body)
  return .absent

/-- What a keyword announces and precedes. -/
def behind {form : Form} (keyword : Keyword) (body : Parser (Phrase form)) :
    Parser (Perhaps form) := do
  if ← eatKeyword keyword then return .present (← body)
  return .absent

/-- Reads `FROM` and the relations behind it, or nothing. -/
def sources (rules : Rules) : Parser (List Relation) := do
  if !(← eatKeyword .FROM) then return []
  let (first, others) ← commaList rules.relation
  return first :: others

/-- A select block, from `SELECT` to `HAVING`. -/
def block (rules : Rules) {chained : Bool} (connective : Connective chained) :
    Parser (Phrase (.block chained)) := do
  let _ ← expectKeyword .SELECT
  let modifiers ← modifiers rules
  let (first, others) ← commaList (selectColumn rules.column)
  let sources ← sources rules
  let pivot ← clause .PIVOT (pivot rules)
  let filter ← behind .WHERE rules.condition
  let groupBy ← clause .GROUP (groupBy rules)
  let having ← behind .HAVING rules.condition
  return .block connective modifiers.top modifiers.distinct first (.ofList others)
    (.ofList sources) pivot filter groupBy having

/-- A select block by itself. -/
def select (rules : Rules) : Parser (Phrase (.block false)) :=
  committed (block rules .start)

/-- A set operator, or nothing. -/
def setOperator : Parser (Option SetOperator) := do
  if ← eatKeyword .UNION then
    if ← eatKeyword .ALL then return some .unionAll
    return some .union
  if ← eatKeyword .INTERSECT then return some .intersect
  if ← eatKeyword .EXCEPT then return some .except
  return none

/-- A set operator and the block behind it, or nothing. -/
def chainedBlock (rules : Rules) : Parser (Option (Phrase (.block true))) := do
  match ← setOperator with
  | none => return none
  | some operator => return some (← block rules (.chained operator))

/-- The bracketed names of the columns of a named subquery, at least one. -/
def columnNames : Parser (List Identifier) :=
  bracketed fun opening => do
    match ← segments (identifier "a column name") with
    | [] => failAt opening .emptyNameList
    | names => return names

/-- The bracketed statement of a named subquery. -/
def cteStatement (rules : Rules) (name : Identifier) : Parser Statement :=
  bracketed fun opening => do
    if !(← startsStatement) then
      failAt opening (.requires s!"CTE '{name.render}'" "a select statement")
    rules.wholeStatement

/-- Reads `name [(columns)] AS (statement)`. -/
def cte (rules : Rules) : Parser (Phrase .cte) := do
  let name ← identifier "a CTE name"
  let columns ← if ← check .leftParen then columnNames else pure []
  let _ ← expectKeyword .AS
  return .cte name columns (← cteStatement rules name)

/-- Reads `WITH` and the named subqueries behind it, or nothing. -/
def ctes (rules : Rules) : Parser (List (Phrase .cte)) := do
  if !(← eatKeyword .WITH) then return []
  let (first, others) ← commaList (cte rules)
  return first :: others

/-- Reads `[WITH ctes] block {operator block} [ORDER BY ...] [OPTION (...)]`. -/
def statementBody (rules : Rules) : Parser Statement := do
  let ctes ← ctes rules
  let first ← block rules .start
  let others ← many (chainedBlock rules)
  let orderBy ← clause .ORDER (orderBy rules)
  let options ← clause .OPTION optionHints
  return .statement (.ofList ctes) first (.ofList others) orderBy options

/-- A statement is a settled shape. -/
def statement (rules : Rules) : Parser Statement :=
  committed (statementBody rules)

end SelectTree.Grammar
