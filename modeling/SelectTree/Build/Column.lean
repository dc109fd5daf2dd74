/-
Module: SelectTree.Build.Column
Purpose: columns, added to a tree as they are read.
Main exports: Build.column, Build.window, Build.orderItem, Build.selectColumn
-/
import SelectTree.Build.Operand
import SelectTree.Grammar.Column

namespace SelectTree.Build

open SelectTree.Builder

/-- Reads `column [COLLATE name] [ASC | DESC]`. -/
def orderItem (rules : Rules) : Builder NodeId := do
  let column ← rules.column
  let collation ← read Grammar.collation
  let direction ← read Grammar.sortDirection
  add (.element (.orderItem (some column) collation direction))

/-- A comma list behind a keyword and `BY`, or nothing. -/
def listBy (keyword : Keyword) (item : Builder NodeId) : Builder (List NodeId) := do
  if !(← read (Parser.eatKeyword keyword)) then return []
  let _ ← read (Parser.expectKeyword .BY)
  let (first, others) ← commaList item
  return first :: others

/-- Reads `OVER ([PARTITION BY columns] [ORDER BY items] [frame])`. -/
def window (rules : Rules) : Builder NodeId := do
  let _ ← read (Parser.expectKeyword .OVER)
  bracketed fun _ => do
    let partitionBy ← listBy .PARTITION rules.column
    let orderBy ← listBy .ORDER (orderItem rules)
    let frame ← read Grammar.frame
    read Parser.expectEnd
    add (.element (.window (slots partitionBy) (slots orderBy) (frame.map Frame.unit)
      (frame.bind Frame.lower) (frame.bind Frame.upper)))

/-- An arithmetic operator and the operand behind it, or nothing. -/
def operation (rules : Rules) : Builder (Option NodeId) := do
  match (← read Parser.peek).bind fun word => Grammar.arithmeticOperator? word.kind with
  | none => return none
  | some operator =>
      read (Parser.skip 1)
      let operand ← operand rules
      return some (← add (.element (.arithmeticOperation operator (some operand))))

/-- An operand with the operations behind it as one node; without operations the operand
itself. -/
def addRun (left : NodeId) (operations : List NodeId) : Builder NodeId :=
  if operations.isEmpty then pure left
  else add (.column (.arithmetic (some left) (slots operations)))

/-- A column: an operand, any number of operations of equal rank, and perhaps a window. -/
def column (rules : Rules) : Builder NodeId := do
  let left ← operand rules
  let operations ← many (operation rules)
  let run ← addRun left operations
  if ← read (Parser.checkKeyword .OVER) then
    let window ← window rules
    add (.column (.windowed (some run) (some window)))
  else return run

/-- A column of a select list: a column and perhaps an alias, which may be a string. -/
def selectColumn (column : Builder NodeId) : Builder NodeId := do
  let column ← column
  match ← read (Parser.aliasName true) with
  | some called => add (.column (.renamed (some column) called))
  | none => return column

end SelectTree.Build
