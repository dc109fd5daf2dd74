/-
Module: SelectTree.Builder
Purpose: reading the front of a sequence of words while the nodes of one tree are added.
Main exports: Limits, Workspace, Builder, Builder.add, Builder.nested, Builder.attempt,
  Builder.bracketed, Builder.segments, Builder.many

A builder works on one workspace from beginning to end: words are consumed, nodes are added and
levels are counted in place, also by a reading that is refused in the end.  So a reading that is
given up leaves words consumed and nodes added behind, and `attempt` has to take them back.
-/
import SelectTree.Layout
import SelectTree.Parser
import SelectTree.Tree.Edit

namespace SelectTree

/-- What surrounds the words of a builder and does not change while it runs. -/
structure Limits where
  /-- How many more levels of brackets may be opened. -/
  room : Nat
  hooks : Hooks := {}

/-- What a builder works on. -/
structure Workspace where
  /-- The words that are not consumed. -/
  words : Words
  /-- How many prefix operators and `CASE` expressions are open. -/
  nesting : Nat
  /-- All nodes that were added, whether they hang somewhere by now or not. -/
  tree : Tree
deriving Repr, Inhabited, DecidableEq

/-- A reading of the words at the front.  What it did to the workspace stays done when the words
are refused. -/
abbrev Builder (α : Type) := ReaderT Limits (ExceptT Fault (StateM Workspace)) α

/-- The scope of a parser under these limits, inside of so many prefix operators. -/
def Limits.scope (limits : Limits) (nesting : Nat) : Scope :=
  { room := limits.room, nesting, hooks := limits.hooks }

namespace Builder

variable {α β : Type}

/-- What a builder answers, and the workspace behind it. -/
def on (builder : Builder α) (limits : Limits) (workspace : Workspace) :
    Except Fault α × Workspace :=
  builder limits workspace

/-- A builder that says what becomes of a workspace. -/
def of (step : Limits → Workspace → Except Fault α × Workspace) : Builder α :=
  step

/-- Reads words without adding a node. -/
def read (parser : Parser α) : Builder α :=
  of fun limits workspace =>
    match parser (limits.scope workspace.nesting) workspace.words with
    | .ok (value, words) => (.ok value, { workspace with words })
    | .error fault => (.error fault, workspace)

/-- Adds a node and names it. -/
def add (node : Node) : Builder NodeId :=
  of fun _ workspace =>
    (.ok workspace.tree.nextId, { workspace with tree := workspace.tree.attach node })

/-- Adds the nodes of a layout. -/
def plant (layout : Layout α) : Builder α :=
  of fun _ workspace =>
    let (value, tree) := workspace.tree.plant layout
    (.ok value, { workspace with tree })

/-- Reads a phrase without parts and adds its node. -/
def leaf {form : Form} (parser : Parser (Phrase form)) : Builder NodeId := do
  let phrase ← read parser
  plant phrase.layout

/-- Refuses the words with a syntax error about one of them. -/
def failAt (word : Word) (cause : Cause) : Builder α :=
  read (Parser.failAt word cause)

/-- Refuses the words because something else should stand here. -/
def failHere (what : String) : Builder α :=
  read (Parser.failHere what)

/-- Runs a builder on other words and goes on with the words from before. -/
def within (range : Words) (body : Builder α) : Builder α :=
  of fun limits workspace =>
    let (answer, behind) := body.on limits { workspace with words := range }
    (answer, { behind with words := workspace.words })

/-- Runs a builder that must consume all words. -/
def wholly (body : Builder α) : Builder α := do
  let value ← body
  read Parser.expectEnd
  return value

/-- Runs a builder, which gets to know the opening bracket, on the contents of the bracket group
at the front, and goes on behind the group. -/
def bracketed (body : Word → Builder α) : Builder α :=
  of fun limits workspace =>
    match Parser.openGroup workspace.words with
    | .error fault => (.error fault, workspace)
    | .ok group =>
        let outside := { workspace with words := group.behind }
        match Parser.enter limits.room group.contents with
        | .error fault => (.error fault, outside)
        | .ok room =>
            (within group.contents (body group.opening)).on { limits with room } outside

/-- Runs a builder inside one more prefix operator or `CASE`.  The level is left again however
the builder ends. -/
def nested (body : Builder α) : Builder α :=
  of fun limits workspace =>
    let nesting := workspace.nesting + 1
    match Parser.checkNesting limits.room nesting workspace.words with
    | .error fault => (.error fault, workspace)
    | .ok () =>
        let (answer, behind) := body.on limits { workspace with nesting }
        (answer, { behind with nesting := behind.nesting - 1 })

/-- Tries a reading.  If the words turn out not to be a condition, the words are put back and the
nodes that were added are dropped. -/
def attempt (body : Builder α) : Builder (Option α) :=
  of fun limits workspace =>
    match body.on limits workspace with
    | (.ok value, behind) => (.ok (some value), behind)
    | (.error fault, behind) =>
        if fault.kind = .notACondition then
          (.ok none, { behind with
            words := workspace.words
            tree := behind.tree.rollback workspace.tree.checkpoint })
        else (.error fault, behind)

/-- Settles on a shape: what is wrong inside is never that the words are not a condition. -/
def committed (body : Builder α) : Builder α :=
  of fun limits workspace =>
    match body.on limits workspace with
    | (.ok value, behind) => (.ok value, behind)
    | (.error fault, behind) => (.error fault.committed, behind)

/-- Runs a builder over and over until it gives nothing, at most as often as the first argument
says. -/
def manyUpTo (item : Builder (Option α)) : Nat → Builder (List α)
  | 0 => return []
  | count + 1 => do
      match ← item with
      | none => return []
      | some first => return first :: (← manyUpTo item count)

/-- Runs a builder over and over until it gives nothing.  An item consumes at least one word, so
there are no more items than words. -/
def many (item : Builder (Option α)) : Builder (List α) := do
  manyUpTo item (← read Parser.remaining).length

/-- A comma and an item behind it, or nothing. -/
def commaItem (item : Builder α) : Builder (Option α) := do
  if ← read (Parser.eat .comma) then return some (← item)
  return none

/-- At least one item, with commas between the items. -/
def commaList (item : Builder α) : Builder (α × List α) := do
  let first ← item
  let others ← many (commaItem item)
  return (first, others)

/-- Runs a builder on each of some stretches of words; it must consume the whole stretch. -/
def eachWholly (item : Builder α) : List Words → Builder (List α)
  | [] => return []
  | segment :: segments => do
      let first ← within segment (wholly item)
      let others ← eachWholly item segments
      return first :: others

/-- Runs a builder on each comma segment of all remaining words; it must consume the whole
segment. -/
def segments (item : Builder α) : Builder (List α) := do
  let words ← read Parser.remaining
  let found ← eachWholly item (Words.splitCommas words)
  read (Parser.skip words.length)
  return found

/-- What a hook makes of the words, if there is one. -/
def hooked {form : Form} (choose : Hooks → Option (Hook (Phrase form))) :
    Builder (Option NodeId) := do
  match ← read (Parser.hooked choose) with
  | none => return none
  | some phrase => return some (← plant phrase.layout)

end Builder

end SelectTree
