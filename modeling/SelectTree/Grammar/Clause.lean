/-
Module: SelectTree.Grammar.Clause
Purpose: the clauses of a select block and of a statement.
Main exports: Grammar.top, Grammar.pivot, Grammar.groupBy, Grammar.orderBy, Grammar.optionHints
-/
import SelectTree.Grammar.Column

namespace SelectTree.Grammar

open SelectTree.Parser

/-- A count behind `TOP` is a number, a variable or a bracketed column. -/
def startsCount : TokenKind → Bool
  | .integer _ | .decimal _ | .variable _ | .leftParen => true
  | _ => false

/-- Reads `TOP count [PERCENT] [WITH TIES]`. -/
def top (rules : Rules) : Parser (Phrase .top) := do
  let _ ← expectKeyword .TOP
  if !((← peek).any fun word => startsCount word.kind) then failHere "a TOP count"
  let count ← rules.operand
  let percent ← eatKeyword .PERCENT
  let withTies ← eatKeyword .WITH
  if withTies then
    let _ ← expectKeyword .TIES
  return .top count percent withTies

/-- The brackets of a pivot: `aggregation FOR column IN (values)`. -/
def pivotBody (rules : Rules) (opening : Word) :
    Parser (Column × Column × Column × List Column) := do
  let words ← remaining
  match Words.firstKeyword? .FOR words with
  | none => failAt opening (.requires "PIVOT" "FOR")
  | some place =>
      let aggregation ← within (words.take place) (wholly rules.column)
      skip (place + 1)
      let pivotColumn ← rules.column
      let _ ← expectKeyword .IN
      let (first, others) ← bracketed fun valuesOpening => do
        match ← segments rules.column with
        | [] => failAt valuesOpening (.requires "PIVOT" "at least one value")
        | first :: others => return (first, others)
      expectEnd
      return (aggregation, pivotColumn, first, others)

/-- Reads `PIVOT (aggregation FOR column IN (values)) [AS] alias`. -/
def pivot (rules : Rules) : Parser (Phrase .pivot) := do
  let _ ← expectKeyword .PIVOT
  let (aggregation, pivotColumn, first, others) ← bracketed (pivotBody rules)
  match ← aliasName false with
  | some called => return .pivot aggregation pivotColumn first (.ofList others) called
  | none => failHere "an alias for PIVOT"

/-- The keyword of a grouping function, if a bracket follows it. -/
def groupingFunction? : Words → Option GroupingFunction
  | first :: second :: _ =>
      if second.kind = .leftParen then
        match first.kind with
        | .keyword .ROLLUP => some .rollup
        | .keyword .CUBE => some .cube
        | _ => none
      else none
  | _ => none

/-- The bracketed columns of a grouping function, at its keyword. -/
def functionSet (rules : Rules) (function : GroupingFunction) :
    Parser (Phrase .functionSet) := do
  skip 1
  bracketed fun opening => do
    match ← segments rules.column with
    | [] => failAt opening (.requires function.text "at least one column")
    | first :: others => return .functionSet function first (.ofList others)

/-- One set of `GROUPING SETS`: a grouping function, bracketed columns or one column. -/
def groupingSet (rules : Rules) : Parser (Phrase .groupingSet) := do
  match groupingFunction? (← remaining) with
  | some function => return .functionGroup (← functionSet rules function)
  | none =>
      if ← check .leftParen then return .columnSet (.ofList (← columnList rules))
      return .columnSet (.ofList [← rules.column])

/-- The bracketed sets of `GROUPING SETS`. -/
def groupingSets (rules : Rules) : Parser (Phrase .groupBy) :=
  bracketed fun opening => do
    match ← segments (groupingSet rules) with
    | [] => failAt opening (.requires "GROUPING SETS" "at least one set")
    | first :: others => return .groupingSets first (.ofList others)

/-- An element of a list to group by: a grouping function or a column. -/
def groupElement (rules : Rules) : Parser (Phrase .groupElement) := do
  match groupingFunction? (← remaining) with
  | some function => return .functionElement (← functionSet rules function)
  | none => return .plainElement (← rules.column)

/-- Reads `GROUP BY elements` or `GROUP BY GROUPING SETS (sets)`. -/
def groupBy (rules : Rules) : Parser (Phrase .groupBy) := do
  let _ ← expectKeyword .GROUP
  let _ ← expectKeyword .BY
  if ← eatKeyword .GROUPING then
    let _ ← expectKeyword .SETS
    groupingSets rules
  else
    let (first, others) ← commaList (groupElement rules)
    return .groupList first (.ofList others)

/-- Reads `ROW` or `ROWS`. -/
def rowsWord : Parser Unit := do
  if ← eatKeyword .ROW then return
  if ← eatKeyword .ROWS then return
  failHere "ROW or ROWS"

/-- Reads `OFFSET count ROWS`, or nothing. -/
def offset (rules : Rules) : Parser (Perhaps .column) := do
  if !(← eatKeyword .OFFSET) then return .absent
  let count ← rules.column
  rowsWord
  return .present count

/-- Reads `FETCH {NEXT | FIRST} count ROWS ONLY`, or nothing. -/
def fetch (rules : Rules) : Parser (Perhaps .column) := do
  if !(← eatKeyword .FETCH) then return .absent
  if !(← eatKeyword .NEXT) then
    if !(← eatKeyword .FIRST) then failHere "NEXT or FIRST"
  let count ← rules.column
  rowsWord
  let _ ← expectKeyword .ONLY
  return .present count

/-- Reads `ORDER BY items [OFFSET ...] [FETCH ...]`. -/
def orderBy (rules : Rules) : Parser (Phrase .orderBy) := do
  let _ ← expectKeyword .ORDER
  let _ ← expectKeyword .BY
  let (first, others) ← commaList (orderItem rules)
  let offset ← offset rules
  return .orderBy first (.ofList others) offset (← fetch rules)

/-- The hints of a list as written; an empty one is refused. -/
def hintTexts (opening : Word) : List String → Parser (List Verbatim)
  | [] => return []
  | text :: texts =>
      if h : text = "" then failAt opening .emptyHint
      else return { text, text_ne_empty := h } :: (← hintTexts opening texts)

/-- Reads `OPTION (hints)`; hints are kept as written. -/
def optionHints : Parser (Phrase .optionHints) := do
  let _ ← expectKeyword .OPTION
  bracketed fun opening => do
    match ← hintTexts opening (Words.commaTexts (← remaining)) with
    | [] => failAt opening (.requires "OPTION" "at least one hint")
    | first :: others => return .optionHints first others

end SelectTree.Grammar
