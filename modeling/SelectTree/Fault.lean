/-
Module: SelectTree.Fault
Purpose: why a text is not a query, and how that is reported.
Main exports: ErrorKind, Cause, Fault, ParseError, Fault.report
-/
import SelectTree.Literal.Temporal
import SelectTree.Word

namespace SelectTree

/-- Coarse kinds of parse error. -/
inductive ErrorKind where
  /-- The source holds text that is no token. -/
  | lexical
  /-- A word in the wrong place, an open bracket, a wrong number of arguments. -/
  | syntactic
  /-- The words are not a condition.  A bracketed condition that fails so is read once more as
  a column. -/
  | notACondition
  /-- Words are left behind a complete query. -/
  | incomplete
  /-- Nesting goes beyond the limit. -/
  | depthLimit
deriving Repr, Inhabited, DecidableEq

/-- Why the grammar refuses the words. -/
inductive Cause where
  /-- Something else should stand here. -/
  | expected (what : String)
  /-- Nothing should stand here. -/
  | unexpected
  | unmatchedBracket
  | emptyBrackets
  /-- The contents of a bracket cannot begin a condition. -/
  | noCondition
  /-- A construct lacks a part. -/
  | requires (subject part : String)
  /-- A construct has the wrong number or choice of parts. -/
  | expects (subject parts : String)
  /-- A column reference or function name of more than two parts. -/
  | longColumnName (parts : List Identifier)
  | longTableName (parts : List Identifier)
  | unknownEscape (tag : String)
  | invalidTemporal (tag text : String) (problem : Temporal.Problem)
  | emptyNameList
  | emptyHint
  | negativeOffset
  | leftover
  | bracketDepth
  | expressionDepth
deriving Repr, Inhabited, DecidableEq

/-- The wording of a cause, given the word it is about and the limit on nesting. -/
def Cause.message (place : Option Word) (limit : Nat) : Cause → String
  | .expected what =>
      match place with
      | some word => s!"expected {what}, found '{word.text}'"
      | none => s!"expected {what}, found end of input"
  | .unexpected => s!"unexpected token '{(place.map Word.text).getD default}'"
  | .unmatchedBracket => "unmatched bracket"
  | .emptyBrackets => "empty brackets"
  | .noCondition => "brackets do not hold a condition"
  | .requires subject part => s!"{subject} requires {part}"
  | .expects subject parts => s!"{subject} expects {parts}"
  | .longColumnName parts =>
      s!"column name '{Identifier.renderPath parts}' has more than two parts"
  | .longTableName parts =>
      s!"table name '{Identifier.renderPath parts}' has more than three parts"
  | .unknownEscape tag => s!"unknown date/time escape '{tag}'"
  | .invalidTemporal tag text problem =>
      s!"invalid {tag} literal '{text}': {problem.message}"
  | .emptyNameList => "empty CTE column list"
  | .emptyHint => "empty query hint"
  | .negativeOffset => "frame offset must not be negative"
  | .leftover => "parsing incomplete"
  | .bracketDepth => s!"brackets nested deeper than {limit} levels"
  | .expressionDepth => s!"expression nested deeper than {limit} levels"

/-- A refusal: its kind, its cause, and the word it is about if there is one. -/
structure Fault where
  kind : ErrorKind
  cause : Cause
  place : Option Word
deriving Repr, Inhabited, DecidableEq

namespace Fault

/-- A syntax error about a word. -/
def about (word : Word) (cause : Cause) : Fault :=
  { kind := .syntactic, cause, place := some word }

/-- Something else should stand in front of the remaining words. -/
def expected (kind : ErrorKind) (what : String) (words : Words) : Fault :=
  { kind, cause := .expected what, place := words.head? }

/-- Once the grammar has settled on a shape, an error inside no longer says that the words are
not a condition. -/
def committed (fault : Fault) : Fault :=
  if fault.kind = .notACondition then { fault with kind := .syntactic } else fault

end Fault

/-- A parse error as it is shown.  Line and column count from zero and are missing when there
was no word to point at. -/
structure ParseError where
  kind : ErrorKind
  message : String
  line : Option Nat
  column : Option Nat
  tokenText : Option String
deriving Repr, Inhabited, DecidableEq

namespace ParseError

/-- The kind of error inside a settled shape. -/
def committed (error : ParseError) : ParseError :=
  if error.kind = .notACondition then { error with kind := .syntactic } else error

/-- The error says where it is. -/
def isPositioned (error : ParseError) : Bool :=
  error.line.isSome && error.column.isSome

/-- The place of the error in words, or nothing. -/
def location (error : ParseError) : String :=
  match error.line, error.column, error.tokenText with
  | some line, some column, some text => s!" at line {line}, column {column} near '{text}'"
  | some line, some column, none => s!" at line {line}, column {column}"
  | _, _, _ => ""

/-- The error in words: its message, then its place. -/
def render (error : ParseError) : String :=
  error.message ++ error.location

/-- An error at a byte offset of a source. -/
def atOffset (trivia : List Token) (kind : ErrorKind) (message : String) (offset : Nat)
    (text : String) : ParseError :=
  let position := Position.ofOffset trivia offset
  { kind, message, line := some position.line, column := some position.column,
    tokenText := some text }

/-- An error that points nowhere. -/
def unplaced (kind : ErrorKind) (message : String) : ParseError :=
  { kind, message, line := none, column := none, tokenText := none }

end ParseError

/-- A fault as it is shown: the word it is about is looked up among the tokens of the source. -/
def Fault.report (stream : TokenStream) (limit : Nat) (fault : Fault) : ParseError :=
  let message := fault.cause.message fault.place limit
  match fault.place.bind fun word => stream.tokens[word.index]? with
  | some token => .atOffset stream.trivia fault.kind message token.span.start token.text
  | none => .unplaced fault.kind message

end SelectTree
