/-
Module: SelectTree.Parser
Purpose: reading phrases off the front of a sequence of words.
Main exports: Scope, Parser, Parser.bracketed, Parser.segments, Parser.nested,
  Parser.attempt, Parser.many

A parser gets the words that are not consumed and either leaves a rest of them or refuses them.
Words are consumed in no other way, so giving up a reading means to go on with the words from
before it.
-/
import SelectTree.Hook
import SelectTree.Words.Segment

namespace SelectTree

/-- What surrounds the words of a parser. -/
structure Scope where
  /-- How many more levels of brackets may be opened. -/
  room : Nat
  /-- How many prefix operators and `CASE` expressions are open. -/
  nesting : Nat := 0
  hooks : Hooks := {}

/-- A parser for the words at the front. -/
abbrev Parser (α : Type) := ReaderT Scope (StateT Words (Except Fault)) α

namespace Parser

variable {α β : Type}

/-- The words that are not consumed. -/
def remaining : Parser Words := get

/-- The next word. -/
def peek : Parser (Option Word) := do
  return (← remaining).head?

/-- Consumes up to `count` words. -/
def skip (count : Nat) : Parser Unit :=
  modify (List.drop count)

/-- Refuses the words with a fault. -/
def fail (fault : Fault) : Parser α := throw fault

/-- Refuses the words with a syntax error about one of them. -/
def failAt (word : Word) (cause : Cause) : Parser α :=
  fail (.about word cause)

/-- Refuses the words because something else should stand here. -/
def failHere (what : String) : Parser α := do
  fail (.expected .syntactic what (← remaining))

/-- The next word is of this kind. -/
def check (kind : TokenKind) : Parser Bool := do
  return (← peek).any (·.kind == kind)

/-- The next word is this keyword. -/
def checkKeyword (keyword : Keyword) : Parser Bool :=
  check (.keyword keyword)

/-- Consumes the next word if it is of this kind. -/
def eat (kind : TokenKind) : Parser Bool := do
  if ← check kind then
    skip 1
    return true
  return false

/-- Consumes the next word if it is this keyword. -/
def eatKeyword (keyword : Keyword) : Parser Bool :=
  eat (.keyword keyword)

/-- Consumes the next word, which must be of this kind. -/
def expect (kind : TokenKind) (what : String) : Parser Word := do
  match ← peek with
  | some word =>
      if word.kind = kind then
        skip 1
        return word
      failHere what
  | none => failHere what

/-- Consumes the next word, which must be this keyword. -/
def expectKeyword (keyword : Keyword) : Parser Word :=
  expect (.keyword keyword) keyword.text

/-- Refuses the words if one of them is left. -/
def expectEnd : Parser Unit := do
  if let some word ← peek then failAt word .unexpected

/-- Runs a parser on other words and goes on with the words from before. -/
def within (range : Words) (body : Parser α) : Parser α := fun scope words => do
  let (value, _) ← body scope range
  return (value, words)

/-- Runs a parser that must consume all words. -/
def wholly (body : Parser α) : Parser α := do
  let value ← body
  expectEnd
  return value

/-- Opens the bracket group at the front of the words. -/
def openGroup (words : Words) : Except Fault Words.Group :=
  match words with
  | [] => .error (.expected .syntactic "'('" words)
  | first :: _ =>
      if first.kind = .leftParen then
        match Words.group? words with
        | some group => .ok group
        | none => .error (.about first .unmatchedBracket)
      else .error (.expected .syntactic "'('" words)

/-- One level of brackets less, for the given contents. -/
def enter (room : Nat) (contents : Words) : Except Fault Nat :=
  match room with
  | 0 => .error { kind := .depthLimit, cause := .bracketDepth, place := contents.head? }
  | room + 1 => .ok room

/-- Runs a parser, which gets to know the opening bracket, on the contents of the bracket group
at the front, and goes on behind the group. -/
def bracketed (body : Word → Parser α) : Parser α := fun scope words => do
  let group ← openGroup words
  let room ← enter scope.room group.contents
  let (value, _) ← body group.opening { scope with room } group.contents
  return (value, group.behind)

/-- One more prefix operator or `CASE` fits in front of these words. -/
def checkNesting (room nesting : Nat) (words : Words) : Except Fault Unit :=
  if nesting < room then .ok ()
  else .error { kind := .depthLimit, cause := .expressionDepth, place := words.head? }

/-- Runs a parser inside one more prefix operator or `CASE`.  These have no brackets around
them, so they are counted by themselves, towards the same limit. -/
def nested (body : Parser α) : Parser α := fun scope words => do
  let nesting := scope.nesting + 1
  checkNesting scope.room nesting words
  body { scope with nesting } words

/-- Tries a reading.  If the words turn out not to be a condition, nothing has happened. -/
def attempt (body : Parser α) : Parser (Option α) := fun scope words =>
  match body scope words with
  | .ok (value, rest) => .ok (some value, rest)
  | .error fault =>
      if fault.kind = .notACondition then .ok (none, words) else .error fault

/-- Settles on a shape: what is wrong inside is never that the words are not a condition. -/
def committed (body : Parser α) : Parser α := fun scope words =>
  match body scope words with
  | .ok result => .ok result
  | .error fault => .error fault.committed

/-- Runs a parser over and over until it gives nothing, at most as often as the first argument
says. -/
def manyUpTo (item : Parser (Option α)) : Nat → Parser (List α)
  | 0 => return []
  | count + 1 => do
      match ← item with
      | none => return []
      | some first => return first :: (← manyUpTo item count)

/-- Runs a parser over and over until it gives nothing.  An item consumes at least one word, so
there are no more items than words. -/
def many (item : Parser (Option α)) : Parser (List α) := do
  manyUpTo item (← remaining).length

/-- At least one item, with commas between the items. -/
def commaList (item : Parser α) : Parser (α × List α) := do
  let first ← item
  let others ← many do
    if ← eat .comma then return some (← item)
    return none
  return (first, others)

/-- Runs a parser on each comma segment of all remaining words; it must consume the whole
segment. -/
def segments (item : Parser α) : Parser (List α) := do
  let words ← remaining
  let found ← (Words.splitCommas words).mapM fun segment => within segment (wholly item)
  skip words.length
  return found

/-- What a hook makes of the words, if there is one. -/
def hooked (choose : Hooks → Option (Hook α)) : Parser (Option α) := fun scope words =>
  match choose scope.hooks with
  | none => .ok (none, words)
  | some hook => do
      match ← hook words with
      | some (value, rest) => return (some value, rest)
      | none => return (none, words)

/-- A name. -/
def identifier (what : String) : Parser Identifier := do
  match (← peek).bind Word.identifier? with
  | some name =>
      skip 1
      return name
  | none => failHere what

/-- Behind `AS`, a string where strings may be names. -/
def stringName? (word : Word) : Option Identifier :=
  match word.kind with
  | .string name | .nationalString name => some (.quoted name)
  | _ => none

/-- A name that may stand as an alias without `AS`: keywords may not. -/
def bareAlias? (word : Word) : Option Identifier :=
  match word.kind with
  | .identifier _ | .delimitedIdentifier _ => word.identifier?
  | _ => none

/-- An alias that may be missing: `AS name`, `AS 'name'` where strings may be names, or a bare
name. -/
def aliasName (allowString : Bool) : Parser (Option Identifier) := do
  if ← eatKeyword .AS then
    let next ← peek
    match if allowString then next.bind stringName? else none with
    | some name =>
        skip 1
        return some name
    | none => return some (← identifier "an alias after AS")
  match (← peek).bind bareAlias? with
  | some name =>
      skip 1
      return some name
  | none => return none

/-- The words begin a statement. -/
def startsStatement : Parser Bool := do
  return (← checkKeyword .SELECT) || (← checkKeyword .WITH)

end Parser

end SelectTree
