/-
Module: SelectTree.Parse
Purpose: from source text to syntax tree, unless a denied keyword is mentioned.
Main exports: Policy.offences, Policy.check, Options, EntryPoint, Failure, TokenStream.phrase,
  TokenStream.tree, parse
-/
import SelectTree.Build

namespace SelectTree

namespace Policy

/-- How far into the brackets of a hint list a place is: `none` outside of any, otherwise the
number of brackets open since the keyword that began the list. -/
abbrev HintDepth := Option Nat

/-- The denied keywords among the kinds of a token sequence, in order.  Inside the brackets
that follow `OPTION` the keyword `USE` begins a hint and is no offence. -/
def offences : HintDepth → List TokenKind → List Keyword
  | _, [] => []
  | none, .keyword .OPTION :: rest =>
      offences (if rest.head? = some .leftParen then some 0 else none) rest
  | some depth, .leftParen :: rest => offences (some (depth + 1)) rest
  | some depth, .rightParen :: rest =>
      offences (if depth ≤ 1 then none else some (depth - 1)) rest
  | some depth, .keyword .USE :: rest => offences (some depth) rest
  | depth, .keyword keyword :: rest =>
      if keyword.isDenied then keyword :: offences depth rest else offences depth rest
  | depth, _ :: rest => offences depth rest

/-- Refuses a token sequence with offences and names each offending keyword once, in
alphabetical order. -/
def check (kinds : List TokenKind) : Except (List Keyword) Unit :=
  let found := offences none kinds
  match Keyword.denied.filter fun keyword => found.contains keyword with
  | [] => .ok ()
  | refused => .error refused

end Policy

/-- What a caller may choose. -/
structure Options where
  /-- Refuse sources with denied keywords before anything is parsed. -/
  enforcePolicy : Bool := true
  /-- The limit on the nesting of brackets, and of prefix operators and `CASE`. -/
  maxDepth : Nat := 128
deriving Repr, DecidableEq

instance : Inhabited Options := ⟨{}⟩

/-- What a source is parsed as. -/
inductive EntryPoint where
  | statement
  /-- A column with its alias. -/
  | column
  | condition
  /-- One select block. -/
  | select
deriving Repr, Inhabited, DecidableEq

/-- The rule that a source must match. -/
def EntryPoint.rule : EntryPoint → Rule
  | .statement => .statement
  | .column => .selectColumn
  | .condition => .condition
  | .select => .select

/-- Why there is no tree. -/
inductive Failure where
  /-- The source mentions these denied keywords. -/
  | denied (keywords : List Keyword)
  | refused (error : ParseError)
deriving Repr, DecidableEq

/-- The wording of a failure. -/
def Failure.message : Failure → String
  | .denied keywords => "denied keywords: " ++ ", ".intercalate (keywords.map Keyword.text)
  | .refused error => error.render

/-- Nothing may follow what is parsed but one semicolon. -/
def Parser.ending : Parser Unit := do
  let _ ← eat .semicolon
  match ← peek with
  | none => return
  | some word => fail { kind := .incomplete, cause := .leftover, place := some word }

/-- The phrase that a sequence of words is, for a rule and a limit on nesting. -/
def Rule.phrase (rule : Rule) (maxDepth : Nat) (hooks : Hooks) (words : Words) :
    Except Fault (Phrase rule.form) := do
  let (phrase, rest) ← rule.parser { room := maxDepth, hooks } words
  let _ ← Parser.ending { room := maxDepth, hooks } rest
  return phrase

/-- The tree that a rule builds from a sequence of words, with what the rule recognises as the
only child of the root. -/
def Rule.tree (rule : Rule) (maxDepth : Nat) (hooks : Hooks) (words : Words) :
    Except Fault Tree :=
  let limits : Limits := { room := maxDepth, hooks }
  let complete : Builder NodeId := do
    let id ← rule.builder
    Builder.read Parser.ending
    return id
  match complete.on limits { words, nesting := 0, tree := .new } with
  | (.ok id, workspace) => .ok (workspace.tree.setRootChild id)
  | (.error fault, _) => .error fault

/-- A lexical error is reported at the first text that is no token. -/
def TokenStream.lexicalError? (stream : TokenStream) : Option ParseError := do
  let token ← stream.firstError?
  let message ← token.kind.complaint?
  return .atOffset stream.trivia .lexical message token.span.start token.text

/-- Refuses a token stream that is not for the grammar: for a lexical error first, then for denied
keywords. -/
def TokenStream.screen (stream : TokenStream) (options : Options) : Except Failure Unit := do
  if let some error := stream.lexicalError? then throw (.refused error)
  if options.enforcePolicy then
    if let .error keywords := Policy.check (stream.tokens.map Token.kind) then
      throw (.denied keywords)

/-- The phrase that a token stream is. -/
def TokenStream.phrase (stream : TokenStream) (rule : Rule) (options : Options) (hooks : Hooks) :
    Except Failure (Phrase rule.form) := do
  stream.screen options
  (rule.phrase options.maxDepth hooks stream.words).mapError fun fault =>
    .refused (fault.report stream options.maxDepth)

/-- The tree that is built from a token stream. -/
def TokenStream.tree (stream : TokenStream) (rule : Rule) (options : Options) (hooks : Hooks) :
    Except Failure Tree := do
  stream.screen options
  (rule.tree options.maxDepth hooks stream.words).mapError fun fault =>
    .refused (fault.report stream options.maxDepth)

/-- The tree whose root holds a phrase and nothing else. -/
def Phrase.tree {form : Form} (phrase : Phrase form) : Tree :=
  let (id, tree) := Tree.new.plant phrase.layout
  tree.setRootChild id

/-- The syntax tree of a source. -/
def parse (entry : EntryPoint) (source : String) (options : Options) (hooks : Hooks) :
    Except Failure Tree :=
  (TokenStream.ofString source).tree entry.rule options hooks

end SelectTree
