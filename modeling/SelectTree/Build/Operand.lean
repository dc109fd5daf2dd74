/-
Module: SelectTree.Build.Operand
Purpose: the operands of arithmetic, added to a tree as they are read.
Main exports: Build.Rules, Build.operand, Build.bracketOperand

Each rule reads the words as the rule of the same name in `SelectTree.Grammar` does, and adds a
node for each phrase as soon as the phrase is complete.
-/
import SelectTree.Builder
import SelectTree.Grammar.Operand

namespace SelectTree.Build

open SelectTree.Builder

/-- The rules that occur inside of rules. -/
structure Rules where
  operand : Builder NodeId
  column : Builder NodeId
  term : Builder NodeId
  condition : Builder NodeId
  relation : Builder NodeId
  statement : Builder NodeId

/-- Rules that refuse everything, for when no further level of rules is left. -/
def Rules.exhausted : Rules :=
  { operand := read Grammar.exhausted, column := read Grammar.exhausted,
    term := read Grammar.exhausted, condition := read Grammar.exhausted,
    relation := read Grammar.exhausted, statement := read Grammar.exhausted }

/-- The whole contents of a bracket as a statement. -/
def Rules.wholeStatement (rules : Rules) : Builder NodeId :=
  wholly rules.statement

/-- Behind a minus sign: a number, which takes the sign, or an operand to negate. -/
def negative (rules : Rules) : Builder NodeId := do
  match (← read Parser.peek).map Word.kind with
  | some (.integer value) =>
      read (Parser.skip 1)
      add (.column (.literal (.integer (-value))))
  | some (.decimal text) =>
      read (Parser.skip 1)
      add (.column (.literal (.decimal ("-" ++ text))))
  | _ =>
      let operand ← rules.operand
      add (.column (.negated (some operand)))

/-- A list of columns in brackets, perhaps empty. -/
def columnList (rules : Rules) : Builder (List NodeId) :=
  bracketed fun _ => segments rules.column

/-- A call of a scalar function, behind its name. -/
def functionCall (rules : Rules) (name : NamePath 2) : Builder NodeId := do
  let arguments ← columnList rules
  add (.column (.function name.parts (slots arguments)))

/-- An aggregation behind its name, which is the given word. -/
def aggregation (rules : Rules) (name : Word) (function : AggregateFunction) : Builder NodeId :=
  bracketed fun _ => do
    let distinct ← read (Parser.eatKeyword .DISTINCT)
    if !distinct then
      let _ ← read (Parser.eatKeyword .ALL)
    match ← segments rules.column with
    | [] => failAt name (.requires function.text "at least one column")
    | first :: others =>
        add (.column (.aggregation function distinct (slots (first :: others))))

/-- Exactly one column in the given words. -/
def singleColumn (rules : Rules) (opening : Word) (label : String) (words : Words) :
    Builder NodeId := do
  match ← within words (segments rules.column) with
  | [column] => return column
  | _ => failAt opening (.expects label "exactly one column")

/-- Reads `CAST(value AS type)` behind its name. -/
def cast (rules : Rules) (label : String) (lenient : Bool) : Builder NodeId :=
  bracketed fun opening => do
    let (value, type) ← read (Grammar.splitAtType opening label)
    let type ← read (Grammar.typeText opening label "a type after AS" type.text)
    let value ← singleColumn rules opening label value
    add (.column (.cast (some value) type.text lenient))

/-- Reads `CONVERT(type, value [, style])` behind its name. -/
def convert (rules : Rules) (label : String) (lenient : Bool) : Builder NodeId :=
  bracketed fun opening => do
    let (type, arguments) := Words.textUntilComma (← read Parser.remaining)
    let type ← read (Grammar.typeText opening label "a type" type)
    match ← within arguments (segments rules.column) with
    | [value] => add (.column (.convert type.text (some value) none lenient))
    | [value, style] => add (.column (.convert type.text (some value) (some style) lenient))
    | _ => failAt opening (.expects label "one or two columns after the type")

/-- Reads `PARSE(value AS type [USING culture])` behind its name. -/
def parse (rules : Rules) (label : String) (lenient : Bool) : Builder NodeId :=
  bracketed fun opening => do
    let (value, target) ← read (Grammar.splitAtType opening label)
    let (type, culture) := Grammar.splitAtCulture target
    let type ← read (Grammar.typeText opening label "a type after AS" type.text)
    let value ← singleColumn rules opening label value
    match culture with
    | none => add (.column (.parse (some value) type.text none lenient))
    | some words =>
        let culture ← within words (wholly rules.column)
        add (.column (.parse (some value) type.text (some culture) lenient))

/-- Reads `IIF(condition, value, otherwise)` behind its name. -/
def iif (rules : Rules) : Builder NodeId :=
  bracketed fun opening => do
    match Words.splitCommas (← read Parser.remaining) with
    | [condition, value, otherwise] =>
        let condition ← within condition (committed (wholly rules.condition))
        let value ← within value (wholly rules.column)
        let otherwise ← within otherwise (wholly rules.column)
        add (.column (.iif (some condition) (some value) (some otherwise)))
    | _ => failAt opening (.expects "IIF" "exactly three arguments")

/-- A special call behind its name, which is the given word. -/
def specialCall (rules : Rules) (first : Word) (label : String) :
    Grammar.SpecialCall → Builder NodeId
  | .cast lenient => cast rules label lenient
  | .convert lenient => convert rules label lenient
  | .parse lenient => parse rules label lenient
  | .iif => iif rules
  | .aggregation function => aggregation rules first function

/-- What a name, whose first word is consumed, turns out to be: the columns of a table, a
special call, a function call or a column. -/
def named (rules : Rules) (first : Word) (name : Identifier) : Builder NodeId := do
  let others ← read (Parser.many Grammar.nextPart)
  let parts := name :: others
  if ← read (Parser.check .dot) then leaf (Grammar.tableStar first parts)
  else if ← read (Parser.check .leftParen) then
    match Grammar.specialCall? parts with
    | some call => specialCall rules first name.name.toUpper call
    | none =>
        if h : parts.length ≤ 2 then
          functionCall rules { parts, parts_ne_nil := List.cons_ne_nil _ _, length_le := h }
        else failAt first (.longColumnName parts)
  else leaf (Grammar.reference first parts)

/-- Reads `( column )` or `( SELECT ... )`. -/
def bracketOperand (rules : Rules) : Builder NodeId :=
  bracketed fun opening => do
    if (← read Parser.remaining).isEmpty then failAt opening .emptyBrackets
    if ← read Parser.startsStatement then
      let statement ← rules.wholeStatement
      add (.column (.subselect (some statement)))
    else
      let inner ← wholly rules.column
      add (.column (.bracket (some inner)))

/-- A branch of a `CASE` without operand. -/
def searchedBranch (rules : Rules) : Builder (Option NodeId) := do
  if !(← read (Parser.eatKeyword .WHEN)) then return none
  let condition ← committed rules.condition
  let _ ← read (Parser.expectKeyword .THEN)
  let result ← rules.column
  return some (← add (.element (.caseBranch (some condition) none (some result))))

/-- A branch of a `CASE` with an operand. -/
def simpleBranch (rules : Rules) : Builder (Option NodeId) := do
  if !(← read (Parser.eatKeyword .WHEN)) then return none
  let value ← rules.column
  let _ ← read (Parser.expectKeyword .THEN)
  let result ← rules.column
  return some (← add (.element (.caseBranch none (some value) (some result))))

/-- Reads `ELSE column` and `END`. -/
def caseEnd (rules : Rules) : Builder Slot := do
  let otherwise ←
    if ← read (Parser.eatKeyword .ELSE) then some <$> rules.column else pure none
  let _ ← read (Parser.expectKeyword .END)
  return otherwise

/-- Reads `CASE [operand] WHEN ... THEN ... [ELSE ...] END`. -/
def caseOperand (rules : Rules) : Builder NodeId := do
  let _ ← read (Parser.expectKeyword .CASE)
  if ← read (Parser.checkKeyword .WHEN) then
    match ← many (searchedBranch rules) with
    | [] => failHere "WHEN"
    | first :: others =>
        let otherwise ← caseEnd rules
        add (.column (.case none (slots (first :: others)) otherwise))
  else
    let operand ← rules.column
    match ← many (simpleBranch rules) with
    | [] => failHere "WHEN"
    | first :: others =>
        let otherwise ← caseEnd rules
        add (.column (.case (some operand) (slots (first :: others)) otherwise))

/-- An operand that begins with a name or with a keyword that may stand for one. -/
def namedOperand (rules : Rules) (word : Word) : Builder NodeId := do
  match word.identifier? with
  | some name =>
      read (Parser.skip 1)
      named rules word name
  | none => failHere "a column"

/-- A keyword as the name of a scalar function, if a bracket follows. -/
def keywordOperand (rules : Rules) (word : Word) (keyword : Keyword) : Builder NodeId := do
  let next := (← read Parser.remaining).tail.head?
  if keyword.isFunction ∧ (next.map Word.kind) = some .leftParen then
    read (Parser.skip 1)
    functionCall rules (.single (.plain word.text))
  else namedOperand rules word

/-- An operand that is not replaced by a hook. -/
def plainOperand (rules : Rules) : Builder NodeId := do
  let some word ← read Parser.peek | failHere "a column"
  match Grammar.constant? word.kind with
  | some value =>
      read (Parser.skip 1)
      add (.column (.literal value))
  | none =>
      match word.kind with
      | .leftBrace => leaf Grammar.temporalConstant
      | .minus =>
          read (Parser.skip 1)
          nested (negative rules)
      | .variable name =>
          read (Parser.skip 1)
          add (.column (.variable name))
      | .keyword .CASE => nested (caseOperand rules)
      | .keyword .NULL =>
          read (Parser.skip 1)
          add (.column .null)
      | .keyword keyword => keywordOperand rules word keyword
      | .leftParen => bracketOperand rules
      | .star =>
          read (Parser.skip 1)
          add (.column (.star none))
      | _ => namedOperand rules word

/-- One operand of an arithmetic run. -/
def operand (rules : Rules) : Builder NodeId := do
  match ← hooked Hooks.operand with
  | some found => return found
  | none => plainOperand rules

end SelectTree.Build
