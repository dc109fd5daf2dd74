/-
Module: SelectTree.Build.Clause
Purpose: the clauses of a select block and of a statement, added to a tree as they are read.
Main exports: Build.top, Build.pivot, Build.groupBy, Build.orderBy, Build.optionHints
-/
import SelectTree.Build.Column
import SelectTree.Grammar.Clause

namespace SelectTree.Build

open SelectTree.Builder

/-- Reads `TOP count [PERCENT] [WITH TIES]`. -/
def top (rules : Rules) : Builder NodeId := do
  let _ ← read (Parser.expectKeyword .TOP)
  if !((← read Parser.peek).any fun word => Grammar.startsCount word.kind) then
    failHere "a TOP count"
  let count ← rules.operand
  let percent ← read (Parser.eatKeyword .PERCENT)
  let withTies ← read (Parser.eatKeyword .WITH)
  if withTies then
    let _ ← read (Parser.expectKeyword .TIES)
  add (.element (.top (some count) percent withTies))

/-- The brackets of a pivot: `aggregation FOR column IN (values)`. -/
def pivotBody (rules : Rules) (opening : Word) :
    Builder (NodeId × NodeId × NodeId × List NodeId) := do
  let words ← read Parser.remaining
  match Words.firstKeyword? .FOR words with
  | none => failAt opening (.requires "PIVOT" "FOR")
  | some place =>
      let aggregation ← within (words.take place) (wholly rules.column)
      read (Parser.skip (place + 1))
      let pivotColumn ← rules.column
      let _ ← read (Parser.expectKeyword .IN)
      let (first, others) ← bracketed fun valuesOpening => do
        match ← segments rules.column with
        | [] => failAt valuesOpening (.requires "PIVOT" "at least one value")
        | first :: others => return (first, others)
      read Parser.expectEnd
      return (aggregation, pivotColumn, first, others)

/-- Reads `PIVOT (aggregation FOR column IN (values)) [AS] alias`. -/
def pivot (rules : Rules) : Builder NodeId := do
  let _ ← read (Parser.expectKeyword .PIVOT)
  let (aggregation, pivotColumn, first, others) ← bracketed (pivotBody rules)
  match ← read (Parser.aliasName false) with
  | some called =>
      add (.element (.pivot (some aggregation) (some pivotColumn) (slots (first :: others)) called))
  | none => failHere "an alias for PIVOT"

/-- The bracketed columns of a grouping function, at its keyword. -/
def functionSet (rules : Rules) (function : GroupingFunction) : Builder NodeId := do
  read (Parser.skip 1)
  bracketed fun opening => do
    match ← segments rules.column with
    | [] => failAt opening (.requires function.text "at least one column")
    | first :: others => add (.element (.groupingSet function.kind (slots (first :: others))))

/-- One set of `GROUPING SETS`: a grouping function, bracketed columns or one column. -/
def groupingSet (rules : Rules) : Builder NodeId := do
  match Grammar.groupingFunction? (← read Parser.remaining) with
  | some function => functionSet rules function
  | none =>
      if ← read (Parser.check .leftParen) then
        let columns ← columnList rules
        add (.element (.groupingSet .columns (slots columns)))
      else
        let column ← rules.column
        add (.element (.groupingSet .columns (slots [column])))

/-- The bracketed sets of `GROUPING SETS`. -/
def groupingSets (rules : Rules) : Builder NodeId :=
  bracketed fun opening => do
    match ← segments (groupingSet rules) with
    | [] => failAt opening (.requires "GROUPING SETS" "at least one set")
    | first :: others => add (.element (.groupBy true (slots (first :: others))))

/-- An element of a list to group by, and whether it is a plain column. -/
def groupElement (rules : Rules) : Builder (Bool × NodeId) := do
  match Grammar.groupingFunction? (← read Parser.remaining) with
  | some function =>
      let set ← functionSet rules function
      return (false, set)
  | none =>
      let column ← rules.column
      return (true, column)

/-- The plain columns among the elements of a list to group by as one set, if there are any. -/
def addPlainSet (elements : List (Bool × NodeId)) : Builder Slot :=
  let plain := (elements.filter (·.1)).map Prod.snd
  if plain.isEmpty then pure none
  else some <$> add (.element (.groupingSet .columns (slots plain)))

/-- Reads `GROUP BY elements` or `GROUP BY GROUPING SETS (sets)`. -/
def groupBy (rules : Rules) : Builder NodeId := do
  let _ ← read (Parser.expectKeyword .GROUP)
  let _ ← read (Parser.expectKeyword .BY)
  if ← read (Parser.eatKeyword .GROUPING) then
    let _ ← read (Parser.expectKeyword .SETS)
    groupingSets rules
  else
    let (first, others) ← commaList (groupElement rules)
    let plainSet ← addPlainSet (first :: others)
    add (.element (.groupBy false (slots (gatherSets (first :: others) plainSet))))

/-- Reads `OFFSET count ROWS`, or nothing. -/
def offset (rules : Rules) : Builder Slot := do
  if !(← read (Parser.eatKeyword .OFFSET)) then return none
  let count ← rules.column
  read Grammar.rowsWord
  return some count

/-- Reads `FETCH {NEXT | FIRST} count ROWS ONLY`, or nothing. -/
def fetch (rules : Rules) : Builder Slot := do
  if !(← read (Parser.eatKeyword .FETCH)) then return none
  if !(← read (Parser.eatKeyword .NEXT)) then
    if !(← read (Parser.eatKeyword .FIRST)) then failHere "NEXT or FIRST"
  let count ← rules.column
  read Grammar.rowsWord
  let _ ← read (Parser.expectKeyword .ONLY)
  return some count

/-- Reads `ORDER BY items [OFFSET ...] [FETCH ...]`. -/
def orderBy (rules : Rules) : Builder NodeId := do
  let _ ← read (Parser.expectKeyword .ORDER)
  let _ ← read (Parser.expectKeyword .BY)
  let (first, others) ← commaList (orderItem rules)
  let offset ← offset rules
  let fetch ← fetch rules
  add (.element (.orderBy (slots (first :: others)) offset fetch))

/-- Reads `OPTION (hints)`; hints are kept as written. -/
def optionHints : Builder NodeId :=
  leaf Grammar.optionHints

end SelectTree.Build
