/-
Module: SelectTree.Grammar.Operand
Purpose: the rules that the grammar applies inside of each other, and the operands of arithmetic:
  constants, names, calls, `CASE`, brackets.
Main exports: Grammar.Rules, Grammar.operand, Grammar.bracketOperand

Each rule is a function of the rules it applies inside of itself, always behind at least one
consumed word.  `SelectTree.Grammar` ties the knot.
-/
import SelectTree.Parser

namespace SelectTree.Grammar

open SelectTree.Parser

/-- The rules that occur inside of rules. -/
structure Rules where
  operand : Parser Operand
  column : Parser Column
  term : Parser Term
  condition : Parser Condition
  relation : Parser Relation
  statement : Parser Statement

/-- Refuses the words because no further level of rules is left. -/
def exhausted {α : Type} : Parser α := do
  Parser.fail { kind := .depthLimit, cause := .expressionDepth, place := ← Parser.peek }

/-- Rules that refuse everything, for when no further level of rules is left. -/
def Rules.exhausted : Rules :=
  { operand := Grammar.exhausted, column := Grammar.exhausted, term := Grammar.exhausted,
    condition := Grammar.exhausted, relation := Grammar.exhausted,
    statement := Grammar.exhausted }

/-- The whole contents of a bracket as a statement. -/
def Rules.wholeStatement (rules : Rules) : Parser Statement :=
  Parser.wholly rules.statement

/-- The constants that a braced tag announces. -/
def temporalForm? : String → Option Temporal.Form
  | "d" => some .date
  | "t" => some .time
  | "ts" => some .timestamp
  | _ => none

/-- Reads `{d '...'}`, `{t '...'}` or `{ts '...'}`, read in the order tag, text, meaning of the tag,
meaning of the text, closing brace. -/
def temporalConstant : Parser Operand := do
  let opening ← expect .leftBrace "'\x7b'"
  let some tagWord ← peek
    | failAt opening (.expects "date/time escape" "d, t or ts")
  let .identifier written := tagWord.kind
    | failAt opening (.expects "date/time escape" "d, t or ts")
  skip 1
  let tag := written.toLower
  let some literal ← peek | failHere "a quoted date/time value"
  let .string text := literal.kind
    | failHere "a quoted date/time value"
  skip 1
  let some form := temporalForm? tag | failAt opening (.unknownEscape tag)
  match Temporal.read form text with
  | .error problem => failAt literal (.invalidTemporal tag text problem)
  | .ok value =>
      let _ ← expect .rightBrace "'\x7d'"
      return .literal value

/-- Behind a minus sign: a number, which takes the sign, or an operand to negate. -/
def negative (rules : Rules) : Parser Operand := do
  match (← peek).map Word.kind with
  | some (.integer value) =>
      skip 1
      return .literal (.integer (-value))
  | some (.decimal text) =>
      skip 1
      return .literal (.decimal ("-" ++ text))
  | _ => return .negated (← rules.operand)

/-- A list of columns in brackets, perhaps empty. -/
def columnList (rules : Rules) : Parser (List Column) :=
  bracketed fun _ => segments rules.column

/-- A call of a scalar function, behind its name. -/
def functionCall (rules : Rules) (name : NamePath 2) : Parser Operand := do
  return .function name (.ofList (← columnList rules))

/-- An aggregation behind its name, which is the given word. -/
def aggregation (rules : Rules) (name : Word) (function : AggregateFunction) : Parser Operand :=
  bracketed fun _ => do
    let distinct ← eatKeyword .DISTINCT
    if !distinct then
      let _ ← eatKeyword .ALL
    match ← segments rules.column with
    | [] => failAt name (.requires function.text "at least one column")
    | first :: others => return .aggregation function distinct first (.ofList others)

/-- Exactly one column in the given words. -/
def singleColumn (rules : Rules) (opening : Word) (label : String) (words : Words) :
    Parser Column := do
  match ← within words (segments rules.column) with
  | [column] => return column
  | _ => failAt opening (.expects label "exactly one column")

/-- The value and the type of a conversion, of which the type is all that follows the last
`AS` outside of inner brackets. -/
def splitAtType (opening : Word) (label : String) : Parser (Words × Words) := do
  let words ← remaining
  match Words.lastKeyword? .AS words with
  | none => failAt opening (.requires label "AS followed by a type")
  | some place => return (words.take place, words.drop (place + 1))

/-- A type as written, which must not be empty. -/
def typeText (opening : Word) (label part : String) (text : String) : Parser Verbatim :=
  if h : text = "" then failAt opening (.requires label part)
  else return { text, text_ne_empty := h }

/-- Reads `CAST(value AS type)` behind its name. -/
def cast (rules : Rules) (label : String) (lenient : Bool) : Parser Operand :=
  bracketed fun opening => do
    let (value, type) ← splitAtType opening label
    let type ← typeText opening label "a type after AS" type.text
    let value ← singleColumn rules opening label value
    return .cast lenient value type

/-- Reads `CONVERT(type, value [, style])` behind its name. -/
def convert (rules : Rules) (label : String) (lenient : Bool) : Parser Operand :=
  bracketed fun opening => do
    let (type, arguments) := Words.textUntilComma (← remaining)
    let type ← typeText opening label "a type" type
    match ← within arguments (segments rules.column) with
    | [value] => return .convert lenient type value .absent
    | [value, style] => return .convert lenient type value (.present style)
    | _ => failAt opening (.expects label "one or two columns after the type")

/-- Cuts words at the first `USING` outside of inner brackets. -/
def splitAtCulture (words : Words) : Words × Option Words :=
  match Words.firstKeyword? .USING words with
  | none => (words, none)
  | some place => (words.take place, some (words.drop (place + 1)))

/-- Reads `PARSE(value AS type [USING culture])` behind its name. -/
def parse (rules : Rules) (label : String) (lenient : Bool) : Parser Operand :=
  bracketed fun opening => do
    let (value, target) ← splitAtType opening label
    let (type, culture) := splitAtCulture target
    let type ← typeText opening label "a type after AS" type.text
    let value ← singleColumn rules opening label value
    match culture with
    | none => return .parse lenient value type .absent
    | some words =>
        let culture ← within words (wholly rules.column)
        return .parse lenient value type (.present culture)

/-- Reads `IIF(condition, value, otherwise)` behind its name. -/
def iif (rules : Rules) : Parser Operand :=
  bracketed fun opening => do
    match Words.splitCommas (← remaining) with
    | [condition, value, otherwise] =>
        let condition ← within condition (committed (wholly rules.condition))
        let value ← within value (wholly rules.column)
        let otherwise ← within otherwise (wholly rules.column)
        return .iif condition value otherwise
    | _ => failAt opening (.expects "IIF" "exactly three arguments")

/-- The forms of call that have a grammar of their own. -/
inductive SpecialCall where
  | cast (lenient : Bool)
  | convert (lenient : Bool)
  | parse (lenient : Bool)
  | iif
  | aggregation (function : AggregateFunction)
deriving Repr, DecidableEq

/-- The special call that an upper-case name begins. -/
def SpecialCall.ofName? : String → Option SpecialCall
  | "CAST" => some (.cast false)
  | "TRY_CAST" => some (.cast true)
  | "CONVERT" => some (.convert false)
  | "TRY_CONVERT" => some (.convert true)
  | "PARSE" => some (.parse false)
  | "TRY_PARSE" => some (.parse true)
  | "IIF" => some .iif
  | name => (AggregateFunction.ofName? name).map .aggregation

/-- The special call that a name begins: a single part without delimiters, in any case. -/
def specialCall? (parts : List Identifier) : Option SpecialCall :=
  match parts with
  | [name] => if name.delimited then none else SpecialCall.ofName? name.name.toUpper
  | _ => none

/-- A special call behind its name, which is the given word. -/
def specialCall (rules : Rules) (first : Word) (label : String) : SpecialCall → Parser Operand
  | .cast lenient => cast rules label lenient
  | .convert lenient => convert rules label lenient
  | .parse lenient => parse rules label lenient
  | .iif => iif rules
  | .aggregation function => aggregation rules first function

/-- A further part of a name: a dot and a name.  A dot before a star ends the name. -/
def nextPart : Parser (Option Identifier) := do
  if !(← check .dot) then return none
  match (← remaining).tail.head? with
  | none =>
      skip 1
      failHere "a name after '.'"
  | some next =>
      if next.kind = .star then return none
      match next.identifier? with
      | none => failAt next (.expected "a name after '.'")
      | some part =>
          skip 2
          return some part

/-- What the parts of a name refer to when nothing follows: a column, perhaps of a table. -/
def reference (first : Word) : List Identifier → Parser Operand
  | [name] => return .reference none name
  | [table, name] => return .reference (some table) name
  | parts => failAt first (.longColumnName parts)

/-- Reads `table.*`, at the dot. -/
def tableStar (first : Word) (parts : List Identifier) : Parser Operand := do
  skip 2
  match parts with
  | [table] => return .star (some table)
  | parts => failAt first (.longColumnName parts)

/-- What a name, whose first word is consumed, turns out to be: the columns of a table, a
special call, a function call or a column. -/
def named (rules : Rules) (first : Word) (name : Identifier) : Parser Operand := do
  let others ← many nextPart
  let parts := name :: others
  if ← check .dot then tableStar first parts
  else if ← check .leftParen then
    match specialCall? parts with
    | some call => specialCall rules first name.name.toUpper call
    | none =>
        if h : parts.length ≤ 2 then
          functionCall rules { parts, parts_ne_nil := List.cons_ne_nil _ _, length_le := h }
        else failAt first (.longColumnName parts)
  else reference first parts

/-- Reads `( column )` or `( SELECT ... )`. -/
def bracketOperand (rules : Rules) : Parser Operand :=
  bracketed fun opening => do
    if (← remaining).isEmpty then failAt opening .emptyBrackets
    if ← startsStatement then return .subselect (← rules.wholeStatement)
    return .bracketedColumn (← wholly rules.column)

/-- A branch of a `CASE` without operand. -/
def searchedBranch (rules : Rules) : Parser (Option (Phrase .searchedBranch)) := do
  if !(← eatKeyword .WHEN) then return none
  let condition ← committed rules.condition
  let _ ← expectKeyword .THEN
  return some (.searchedBranch condition (← rules.column))

/-- A branch of a `CASE` with an operand. -/
def simpleBranch (rules : Rules) : Parser (Option (Phrase .simpleBranch)) := do
  if !(← eatKeyword .WHEN) then return none
  let value ← rules.column
  let _ ← expectKeyword .THEN
  return some (.simpleBranch value (← rules.column))

/-- Reads `ELSE column` and `END`. -/
def caseEnd (rules : Rules) : Parser (Perhaps .column) := do
  let otherwise ← if ← eatKeyword .ELSE then Perhaps.present <$> rules.column else pure .absent
  let _ ← expectKeyword .END
  return otherwise

/-- Reads `CASE [operand] WHEN ... THEN ... [ELSE ...] END`. -/
def caseOperand (rules : Rules) : Parser Operand := do
  let _ ← expectKeyword .CASE
  if ← checkKeyword .WHEN then
    match ← many (searchedBranch rules) with
    | [] => failHere "WHEN"
    | first :: others => return .searchedCase first (.ofList others) (← caseEnd rules)
  else
    let operand ← rules.column
    match ← many (simpleBranch rules) with
    | [] => failHere "WHEN"
    | first :: others => return .simpleCase operand first (.ofList others) (← caseEnd rules)

/-- A constant that one word makes. -/
def constant? : TokenKind → Option Literal
  | .integer value => some (.integer value)
  | .decimal text => some (.decimal text)
  | .string value => some (.string value)
  | .nationalString value => some (.nationalString value)
  | _ => none

/-- An operand that begins with a name or with a keyword that may stand for one. -/
def namedOperand (rules : Rules) (word : Word) : Parser Operand := do
  match word.identifier? with
  | some name =>
      skip 1
      named rules word name
  | none => failHere "a column"

/-- A keyword as the name of a scalar function, if a bracket follows. -/
def keywordOperand (rules : Rules) (word : Word) (keyword : Keyword) : Parser Operand := do
  let next := (← remaining).tail.head?
  if keyword.isFunction ∧ (next.map Word.kind) = some .leftParen then
    skip 1
    functionCall rules (.single (.plain word.text))
  else namedOperand rules word

/-- An operand that is not replaced by a hook. -/
def plainOperand (rules : Rules) : Parser Operand := do
  let some word ← peek | failHere "a column"
  match constant? word.kind with
  | some value =>
      skip 1
      return .literal value
  | none =>
      match word.kind with
      | .leftBrace => temporalConstant
      | .minus =>
          skip 1
          nested (negative rules)
      | .variable name =>
          skip 1
          return .variable name
      | .keyword .CASE => nested (caseOperand rules)
      | .keyword .NULL =>
          skip 1
          return .null
      | .keyword keyword => keywordOperand rules word keyword
      | .leftParen => bracketOperand rules
      | .star =>
          skip 1
          return .star none
      | _ => namedOperand rules word

/-- One operand of an arithmetic run. -/
def operand (rules : Rules) : Parser Operand := do
  match ← hooked Hooks.operand with
  | some found => return found
  | none => plainOperand rules

end SelectTree.Grammar
