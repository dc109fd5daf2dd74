/-
Module: SelectTree.Session
Purpose: applying rules step by step, by hand, to parts of one source.
Main exports: Context, Session, Session.read, Session.build, Session.apply, Session.attempt
-/
import SelectTree.Cursor.Bracketed
import SelectTree.Parse

namespace SelectTree

/-- A stretch of words and the room for brackets inside. -/
structure Context where
  cursor : Cursor
  room : Nat
deriving Inhabited

namespace Context

/-- What a parser makes of the words that are left, and the context behind them. -/
def run {α : Type} (context : Context) (body : Parser α) : Except Fault (α × Context) := do
  let (value, left) ← body { room := context.room } context.cursor.rest
  return (value, { context with cursor := context.cursor.leaving left })

/-- A context of the same depth over other words. -/
def segment (context : Context) (range : Words) : Context :=
  { context with cursor := .start range }

/-- A context one level deeper over the same words. -/
def deeper (context : Context) : Except Fault Context := do
  let room ← Parser.enter context.room context.cursor.rest
  return { context with room }

/-- The opening bracket of the group at the cursor, a context over its contents, and the
context behind it. -/
def bracketed (context : Context) : Except Fault (Word × Context × Context) := do
  let group ← Parser.openGroup context.cursor.rest
  let room ← Parser.enter context.room group.contents
  return (group.opening, { cursor := .start group.contents, room },
    { context with cursor := context.cursor.leaving group.behind })

end Context

/-- Contexts inside of each other over one source, and the tree that grows under them. -/
structure Session where
  /-- The context in use. -/
  top : Context
  /-- The contexts around it, the innermost first. -/
  outer : List Context
  tree : Tree
deriving Inhabited

namespace Session

/-- The beginning: the whole source and an empty tree. -/
def start (words : Words) (maxDepth : Nat) : Session :=
  { top := { cursor := .start words, room := maxDepth }, outer := [], tree := .new }

/-- Number of contexts. -/
def depth (session : Session) : Nat :=
  session.outer.length + 1

/-- Goes into a context. -/
def push (session : Session) (context : Context) : Session :=
  { session with top := context, outer := session.top :: session.outer }

/-- Leaves the context in use, unless it is the only one. -/
def pop (session : Session) : Session :=
  match session.outer with
  | [] => session
  | context :: outer => { session with top := context, outer }

/-- Puts another cursor into the context in use. -/
def move (session : Session) (cursor : Cursor) : Session :=
  { session with top := { session.top with cursor } }

/-- What a parser makes of the words that are left in the context in use. -/
def read {α : Type} (session : Session) (body : Parser α) : Except Fault (α × Session) := do
  let (value, top) ← session.top.run body
  return (value, { session with top })

/-- Lets a builder go on with the words that are left in the context in use and with the tree. -/
def build {α : Type} (session : Session) (builder : Builder α) : Except Fault (α × Session) :=
  let cursor := session.top.cursor
  let (answer, behind) := builder.on { room := session.top.room }
    { words := cursor.rest, nesting := 0, tree := session.tree }
  answer.map fun value =>
    (value, { session.move (cursor.leaving behind.words) with tree := behind.tree })

/-- Applies a rule, inside of so many prefix operators, which adds what it recognises to the
tree. -/
def apply (session : Session) (rule : Rule) (nesting : Nat) :
    Except Fault (NodeId × Session) :=
  session.build (Nat.repeat Builder.nested nesting rule.builder)

/-- Tries a rule.  If the words are not a condition, the session stays as it is. -/
def attempt (session : Session) (rule : Rule) : Except Fault (Option NodeId × Session) :=
  session.build (Builder.attempt rule.builder)

/-- Goes into the bracket group at the cursor; the context around it goes on behind the
group. -/
def bracketed (session : Session) : Except Fault (Word × Session) := do
  let (opening, inner, behind) ← session.top.bracketed
  return (opening, { session with top := behind }.push inner)

/-- Goes into the bracket group at the cursor without counting it as a level, and gives its opening
bracket.  Where there is no group the cursor is left as the attempt leaves it. -/
def listBracketed (session : Session) : Except Cursor.Mishap (Option Word × Session) :=
  match Cursor.takeBracketed session.top.cursor with
  | .ok (some (opening, inner)) behind =>
      .ok (some opening, (session.move behind).push { session.top with cursor := inner })
  | .ok none behind => .ok (none, session.move behind)
  | .error mishap _ => .error mishap

/-- Goes one level deeper over the same words. -/
def subcontext (session : Session) : Except Fault Session := do
  return session.push (← session.top.deeper)

end Session

end SelectTree
