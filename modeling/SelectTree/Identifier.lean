/-
Module: SelectTree.Identifier
Purpose: names and how they are written.
Main exports: Identifier, Identifier.render, Identifier.renderPath
-/

namespace SelectTree

/-- A name and whether it was written between delimiters. -/
structure Identifier where
  name : String
  delimited : Bool
deriving Repr, Inhabited, DecidableEq

namespace Identifier

/-- A name written without delimiters. -/
def plain (name : String) : Identifier :=
  { name, delimited := false }

/-- A name written between delimiters. -/
def quoted (name : String) : Identifier :=
  { name, delimited := true }

/-- Doubles each closing bracket of a text. -/
def doubleClosing (text : List Char) : List Char :=
  text.flatMap fun c => if c = ']' then [c, c] else [c]

/-- The written form: a delimited name stands between brackets, its closing brackets doubled. -/
def render (identifier : Identifier) : String :=
  if identifier.delimited then
    String.ofList ('[' :: doubleClosing identifier.name.toList ++ [']'])
  else identifier.name

/-- The written form of a name of several parts, with dots between the parts. -/
def renderPath (parts : List Identifier) : String :=
  ".".intercalate (parts.map render)

end Identifier

end SelectTree
