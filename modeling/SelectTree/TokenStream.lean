/-
Module: SelectTree.TokenStream
Purpose: all tokens of a source text, those that matter apart from those that only separate, and the
  lines and columns that are read off the latter.
Main exports: TokenStream, TokenStream.ofString, TokenStream.firstError?, Position,
  Position.ofOffset
-/
import SelectTree.Token.Scan

namespace SelectTree

/-- Number of bytes of a text in UTF-8. -/
def byteLength (text : List Char) : Nat :=
  text.foldr (fun c length => c.utf8Size + length) 0

/-- Cuts a text that begins at a byte offset into its tokens, at most as many as the first
argument says. -/
def Token.scanUpTo : Nat → Nat → List Char → List Token
  | _, _, [] => []
  | 0, _, _ => []
  | count + 1, offset, c :: cs =>
      let lexeme := Lexeme.scan c cs
      let stop := offset + byteLength lexeme.text
      { kind := lexeme.kind, text := String.ofList lexeme.text,
        span := { start := offset, stop } } :: scanUpTo count stop lexeme.rest

/-- Cuts a text into its tokens.  A token takes at least one character, so there are no more
tokens than characters. -/
def Token.scanAll (source : List Char) : List Token :=
  scanUpTo source.length 0 source

/-- The tokens of one source text, in source order. -/
structure TokenStream where
  /-- The tokens that matter to the grammar. -/
  tokens : List Token
  /-- White space and comments. -/
  trivia : List Token
deriving Repr, Inhabited, DecidableEq

namespace TokenStream

/-- The token stream of a source text. -/
def ofString (source : String) : TokenStream :=
  let all := Token.scanAll source.toList
  { tokens := all.filter fun token => !token.kind.isTrivia,
    trivia := all.filter fun token => token.kind.isTrivia }

/-- The first text that is no token. -/
def firstError? (stream : TokenStream) : Option Token :=
  stream.tokens.find? fun token => token.kind.complaint?.isSome

end TokenStream

/-- A place in a source text; both numbers count from zero, the column in bytes. -/
structure Position where
  line : Nat
  column : Nat
deriving Repr, Inhabited, DecidableEq

namespace Position

/-- The byte offsets just behind the newlines of a text that begins at the given offset. -/
def lineStarts (offset : Nat) : List Char → List Nat
  | [] => []
  | c :: cs =>
      let next := offset + c.utf8Size
      if c = '\n' then next :: lineStarts next cs else lineStarts next cs

/-- The place of a byte offset.  Only newlines in trivia that begins before the offset end a
line, so a newline inside a quoted text does not count. -/
def ofOffset (trivia : List Token) (offset : Nat) : Position :=
  let starts := (trivia.takeWhile fun token => token.span.start < offset).flatMap fun token =>
    lineStarts token.span.start token.text.toList
  { line := starts.length, column := offset - starts.getLast?.getD 0 }

end Position

end SelectTree
