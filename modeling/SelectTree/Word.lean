/-
Module: SelectTree.Word
Purpose: what the grammar sees of a token.
Main exports: Word, Words, Words.ofTokens, Words.text, Word.identifier?

The grammar never looks at byte offsets.  Of the place of a token it needs only whether the
token touches the one before, for texts that are kept as written, and which token it is, for
pointing at it in an error.
-/
import SelectTree.TokenStream
import SelectTree.Identifier

namespace SelectTree

/-- A token that matters, as the grammar sees it. -/
structure Word where
  kind : TokenKind
  text : String
  /-- The word begins where the word before it stops. -/
  glued : Bool
  /-- Number of words before this one in the source. -/
  index : Nat
deriving Repr, Inhabited, DecidableEq

/-- A sequence of words, mostly a stretch of one source. -/
abbrev Words := List Word

namespace Word

/-- The word is this keyword. -/
def isKeyword (word : Word) (keyword : Keyword) : Bool :=
  word.kind == .keyword keyword

/-- The name that a word can stand for: a plain or delimited name, or a keyword that is not
reserved. -/
def identifier? (word : Word) : Option Identifier :=
  match word.kind with
  | .identifier name => some (.plain name)
  | .delimitedIdentifier name => some (.quoted name)
  | .keyword keyword => if keyword.isReserved then none else some (.plain word.text)
  | _ => none

end Word

namespace Words

/-- The words of tokens that follow a token which stops at the given offset, the first of them
having the given index. -/
def ofTokensBehind (stop : Option Nat) (index : Nat) : List Token → Words
  | [] => []
  | token :: tokens =>
      { kind := token.kind, text := token.text, index,
        glued := stop == some token.span.start } ::
        ofTokensBehind (some token.span.stop) (index + 1) tokens

/-- The words of a token sequence. -/
def ofTokens (tokens : List Token) : Words :=
  ofTokensBehind none 0 tokens

/-- The text of the words behind another word: one space where a gap was. -/
def textBehind : Words → String
  | [] => ""
  | word :: words => (if word.glued then "" else " ") ++ word.text ++ textBehind words

/-- The text of a stretch of words, with one space wherever the source had a gap. -/
def text : Words → String
  | [] => ""
  | word :: words => word.text ++ textBehind words

end Words

/-- The words of a source. -/
def TokenStream.words (stream : TokenStream) : Words :=
  Words.ofTokens stream.tokens

end SelectTree
