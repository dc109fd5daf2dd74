/-
Module: SelectTree.Grammar.Column
Purpose: columns: arithmetic runs, windows and aliases.
Main exports: Grammar.column, Grammar.window, Grammar.orderItem, Grammar.selectColumn
-/
import SelectTree.Grammar.Operand

namespace SelectTree.Grammar

open SelectTree.Parser

/-- The arithmetic operator that a word of this kind is. -/
def arithmeticOperator? : TokenKind → Option ArithmeticOperator
  | .plus => some .add
  | .minus => some .subtract
  | .star => some .multiply
  | .slash => some .divide
  | .percent => some .modulo
  | .concat => some .concat
  | _ => none

/-- Reads `ASC` or `DESC`; ascending if neither is written. -/
def sortDirection : Parser SortDirection := do
  if ← eatKeyword .DESC then return .desc
  let _ ← eatKeyword .ASC
  return .asc

/-- Reads `COLLATE name`, where the name is a plain one. -/
def collation : Parser (Option String) := do
  if !(← eatKeyword .COLLATE) then return none
  match (← peek).map Word.kind with
  | some (.identifier name) =>
      skip 1
      return some name
  | _ => failHere "a collation name"

/-- Reads `column [COLLATE name] [ASC | DESC]`. -/
def orderItem (rules : Rules) : Parser (Phrase .orderItem) := do
  let column ← rules.column
  let collation ← collation
  return .orderItem column collation (← sortDirection)

/-- Reads `PRECEDING` or `FOLLOWING`. -/
def frameSide : Parser FrameSide := do
  if ← eatKeyword .PRECEDING then return .preceding
  if ← eatKeyword .FOLLOWING then return .following
  failHere "PRECEDING or FOLLOWING"

/-- Reads `UNBOUNDED side`, `CURRENT ROW` or `count side`. -/
def frameBound : Parser FrameBound := do
  if ← eatKeyword .UNBOUNDED then return .unbounded (← frameSide)
  if ← eatKeyword .CURRENT then
    let _ ← expectKeyword .ROW
    return .currentRow
  let some word ← peek | failHere "a frame bound"
  let .integer count := word.kind | failHere "a frame bound"
  if count < 0 then failAt word .negativeOffset
  skip 1
  return .offset count (← frameSide)

/-- Reads `ROWS` or `RANGE`. -/
def frameUnit : Parser (Option FrameUnit) := do
  if ← eatKeyword .ROWS then return some .rows
  if ← eatKeyword .RANGE then return some .range
  return none

/-- A frame that may be missing: a unit, then one bound or two. -/
def frame : Parser (Option Frame) := do
  match ← frameUnit with
  | none => return none
  | some unit =>
      if ← eatKeyword .BETWEEN then
        let lower ← frameBound
        let _ ← expectKeyword .AND
        return some (.between unit lower (← frameBound))
      return some (.single unit (← frameBound))

/-- A comma list behind a keyword and `BY`, or nothing. -/
def listBy {α : Type} (keyword : Keyword) (item : Parser α) : Parser (List α) := do
  if !(← eatKeyword keyword) then return []
  let _ ← expectKeyword .BY
  let (first, others) ← commaList item
  return first :: others

/-- Reads `OVER ([PARTITION BY columns] [ORDER BY items] [frame])`. -/
def window (rules : Rules) : Parser (Phrase .window) := do
  let _ ← expectKeyword .OVER
  bracketed fun _ => do
    let partitionBy ← listBy .PARTITION rules.column
    let orderBy ← listBy .ORDER (orderItem rules)
    let frame ← frame
    expectEnd
    return .window (.ofList partitionBy) (.ofList orderBy) frame

/-- An arithmetic operator and the operand behind it, or nothing. -/
def operation (rules : Rules) : Parser (Option (Phrase .operation)) := do
  match (← peek).bind fun word => arithmeticOperator? word.kind with
  | none => return none
  | some operator =>
      skip 1
      return some (.operation operator (← operand rules))

/-- A column: an operand, any number of operations of equal rank, and perhaps a window. -/
def column (rules : Rules) : Parser Column := do
  let left ← operand rules
  let operations ← many (operation rules)
  let window ←
    if ← checkKeyword .OVER then Perhaps.present <$> Grammar.window rules else pure .absent
  return .column left (.ofList operations) window

/-- A column of a select list: a column and perhaps an alias, which may be a string. -/
def selectColumn (column : Parser Column) : Parser (Phrase .selectColumn) := do
  let column ← column
  return .selectColumn column (← aliasName true)

end SelectTree.Grammar
