/-
Module: SelectTree.Token.Scan
Purpose: the next token at the beginning of a text.
Main exports: Lexeme, Lexeme.scan, Lexeme.Cuts, Lexeme.scan_cuts

A lexeme is cut off the front of the text: its characters followed by the rest are the text
again, and it is never empty (`scan_cuts`), which is why repeated scanning ends.
-/
import SelectTree.Character.Class
import SelectTree.Token

namespace SelectTree

/-- The front of a text as one token, and the text behind it. -/
structure Lexeme where
  kind : TokenKind
  text : List Char
  rest : List Char
deriving Repr, Inhabited, DecidableEq

/-- The contents of a quoted text, read up to and including the closing character. -/
structure QuotedText where
  /-- The contents, each doubled closing character undone. -/
  value : List Char
  /-- The contents as written, with the closing character. -/
  text : List Char
  rest : List Char
deriving Repr, Inhabited, DecidableEq

namespace QuotedText

/-- Puts a piece of the contents in front. -/
def prepend (value : Char) (text : List Char) (quoted : QuotedText) : QuotedText :=
  { quoted with value := value :: quoted.value, text := text ++ quoted.text }

/-- Reads up to the first closing character that is not doubled.  A doubled one stands for
itself. -/
def scan? (close : Char) : List Char → Option QuotedText
  | [] => none
  | c :: cs =>
      if c = close then
        match cs with
        | [] => some { value := [], text := [c], rest := [] }
        | d :: ds =>
            if d = close then (scan? close ds).map (prepend close [c, d])
            else some { value := [], text := [c], rest := d :: ds }
      else (scan? close cs).map (prepend c [c])

end QuotedText

namespace Lexeme

/-- Reads a block comment after its opening up to and including the first `*/`. -/
def blockEnd? : List Char → Option (List Char × List Char)
  | [] => none
  | c :: cs =>
      if c = '*' ∧ cs.head? = some '/' then some ([c, '/'], cs.tail)
      else (blockEnd? cs).map fun (text, rest) => (c :: text, rest)

/-- Operators of two characters. -/
def pairKind? : Char → Char → Option TokenKind
  | '<', '=' => some .ltEq
  | '<', '>' => some .notEq
  | '>', '=' => some .gtEq
  | '!', '=' => some .notEq
  | '|', '|' => some .concat
  | _, _ => none

/-- Operators and punctuation of one character. -/
def singleKind? : Char → Option TokenKind
  | '(' => some .leftParen
  | ')' => some .rightParen
  | '\x7b' => some .leftBrace
  | '\x7d' => some .rightBrace
  | ',' => some .comma
  | ';' => some .semicolon
  | '.' => some .dot
  | '+' => some .plus
  | '-' => some .minus
  | '*' => some .star
  | '/' => some .slash
  | '%' => some .percent
  | '=' => some .eq
  | '<' => some .lt
  | '>' => some .gt
  | _ => none

/-- The opening characters together with the longest run of characters of a class. -/
def run (opening : List Char) (isMember : Char → Bool) (kind : List Char → TokenKind)
    (cs : List Char) : Lexeme :=
  let text := opening ++ cs.takeWhile isMember
  { kind := kind text, text, rest := cs.dropWhile isMember }

/-- A quoted text behind its opening characters.  If it is never closed, all that is left is
one token with a complaint. -/
def quoted (opening : List Char) (close : Char) (kind : String → TokenKind)
    (complaint : String) (cs : List Char) : Lexeme :=
  match QuotedText.scan? close cs with
  | some found =>
      { kind := kind (String.ofList found.value), text := opening ++ found.text,
        rest := found.rest }
  | none => { kind := .error complaint, text := opening ++ cs, rest := [] }

/-- Scans `'...'` or `N'...'` behind its opening. -/
def quotedString (opening : List Char) (kind : String → TokenKind) (cs : List Char) : Lexeme :=
  quoted opening '\'' kind "Unterminated string literal" cs

/-- Scans `[name]` or `"name"` behind its opening. -/
def delimitedName (opening : List Char) (close : Char) (cs : List Char) : Lexeme :=
  quoted opening close .delimitedIdentifier "Unterminated delimited identifier" cs

/-- A comment between `/*` and `*/`, behind its opening. -/
def blockComment (opening cs : List Char) : Lexeme :=
  match blockEnd? cs with
  | some (text, rest) => { kind := .comment, text := opening ++ text, rest }
  | none =>
      { kind := .error "Unterminated block comment", text := opening ++ cs, rest := [] }

/-- A word is a keyword if it is spelled like one, and a name otherwise. -/
def wordKind (text : List Char) : TokenKind :=
  match Keyword.ofName? text with
  | some keyword => .keyword keyword
  | none => .identifier (String.ofList text)

/-- A variable needs a name behind its signs. -/
def variableKind (text : List Char) : TokenKind :=
  if text.all (· == '@') then .error "Expected variable name after @"
  else .variable (String.ofList text)

/-- The fraction at the front of a text: a point that a digit follows, and the digits. -/
def fractionPart : List Char → List Char
  | '.' :: cs => if cs.head?.any Char.isDigit then '.' :: cs.takeWhile Char.isDigit else []
  | _ => []

/-- The exponent at the front of a text: `e` or `E` that a digit or a sign follows, and the
digits behind it. -/
def exponentPart : List Char → List Char
  | e :: c :: cs =>
      if (e = 'e' ∨ e = 'E') ∧ (c.isDigit ∨ c = '+' ∨ c = '-') then
        e :: c :: cs.takeWhile Char.isDigit
      else []
  | _ => []

/-- The kind of a number.  A digit run that no signed word can hold is an exact decimal.  An
exponent that has a sign needs a digit too. -/
def numberKind (whole fraction exponent : List Char) : TokenKind :=
  let text := String.ofList (whole ++ (fraction ++ exponent))
  if fraction.isEmpty && exponent.isEmpty then
    if Decimal.value whole < Decimal.wordLimit then .integer (Decimal.value whole)
    else .decimal text
  else if exponent.isEmpty || exponent.any Char.isDigit then .decimal text
  else .error "Invalid number: invalid float literal"

/-- A number: digits, then perhaps a fraction, then perhaps an exponent. -/
def number (cs : List Char) : Lexeme :=
  let whole := cs.takeWhile Char.isDigit
  let behindWhole := cs.dropWhile Char.isDigit
  let fraction := fractionPart behindWhole
  let behindFraction := behindWhole.drop fraction.length
  let exponent := exponentPart behindFraction
  { kind := numberKind whole fraction exponent, text := whole ++ (fraction ++ exponent),
    rest := behindFraction.drop exponent.length }

/-- The token at the front of the text `c :: cs`.  Comments go before operators, operators of
two characters before those of one, and `N'` before a name. -/
def scan (c : Char) (cs : List Char) : Lexeme :=
  if Character.isBlank c then run [c] Character.isBlank (fun _ => .whitespace) cs
  else if c = '-' ∧ cs.head? = some '-' then run [c] (· != '\n') (fun _ => .comment) cs
  else if c = '/' ∧ cs.head? = some '*' then blockComment [c, '*'] cs.tail
  else match cs.head?.bind (pairKind? c), singleKind? c with
  | some kind, _ => { kind, text := c :: cs.take 1, rest := cs.drop 1 }
  | none, some kind => { kind, text := [c], rest := cs }
  | none, none =>
      if c = '\'' then quotedString [c] .string cs
      else if (c = 'N' ∨ c = 'n') ∧ cs.head? = some '\'' then
        quotedString [c, '\''] .nationalString cs.tail
      else if c = '[' then delimitedName [c] ']' cs
      else if c = '"' then delimitedName [c] '"' cs
      else if c = '@' then run [c] Character.continuesName variableKind cs
      else if c.isDigit then number (c :: cs)
      else if Character.startsName c then run [c] Character.continuesName wordKind cs
      else { kind := .error s!"Unexpected character: {c}", text := [c], rest := cs }

/-! ### Nothing is lost and something is taken -/

/-- A quoted text is cut off the front: contents, closing character and what is behind them. -/
theorem quotedText_append_rest {close : Char} {cs : List Char} {found : QuotedText}
    (h : QuotedText.scan? close cs = some found) : found.text ++ found.rest = cs := by
  fun_induction QuotedText.scan? close cs generalizing found with
  | case1 => simp at h
  | case2 => simp at h; subst h; rfl
  | case3 ds ih =>
    obtain ⟨inner, hInner, rfl⟩ := Option.map_eq_some_iff.1 h
    simp [QuotedText.prepend, ih hInner]
  | case4 d ds _ => simp at h; subst h; rfl
  | case5 c cs _ ih =>
    obtain ⟨inner, hInner, rfl⟩ := Option.map_eq_some_iff.1 h
    simp [QuotedText.prepend, ih hInner]

/-- The end of a block comment is cut off the front. -/
theorem blockEnd_append_rest {cs text rest : List Char} (h : blockEnd? cs = some (text, rest)) :
    text ++ rest = cs := by
  fun_induction blockEnd? cs generalizing text rest with
  | case1 => simp at h
  | case2 c cs hClose =>
    obtain ⟨rfl, hHead⟩ := hClose
    cases cs <;> simp_all
    obtain ⟨rfl, rfl⟩ := h
    rfl
  | case3 c cs _ ih =>
    obtain ⟨⟨innerText, innerRest⟩, hInner, hPair⟩ := Option.map_eq_some_iff.1 h
    obtain ⟨rfl, rfl⟩ := Prod.mk.inj hPair
    simp [ih hInner]

theorem fractionPart_isPrefix (cs : List Char) : fractionPart cs <+: cs := by
  unfold fractionPart
  split
  · split
    · exact (List.prefix_cons_inj _).2 (List.takeWhile_prefix _)
    · exact List.nil_prefix
  · exact List.nil_prefix

theorem exponentPart_isPrefix (cs : List Char) : exponentPart cs <+: cs := by
  unfold exponentPart
  split
  · split
    · exact (List.prefix_cons_inj _).2 ((List.prefix_cons_inj _).2 (List.takeWhile_prefix _))
    · exact List.nil_prefix
  · exact List.nil_prefix

/-- The lexeme takes a non-empty front off the text and leaves the rest. -/
def Cuts (lexeme : Lexeme) (source : List Char) : Prop :=
  lexeme.text ≠ [] ∧ lexeme.text ++ lexeme.rest = source

namespace Cuts

/-- A run is cut off the front, and is not empty because its opening is not. -/
theorem run {opening : List Char} (hOpening : opening ≠ []) (isMember : Char → Bool)
    (kind : List Char → TokenKind) (cs : List Char) :
    (Lexeme.run opening isMember kind cs).Cuts (opening ++ cs) := by
  simp [Cuts, Lexeme.run, hOpening, List.takeWhile_append_dropWhile]

/-- A quoted text, also one that nothing closes, is cut off the front. -/
theorem quoted {opening : List Char} (hOpening : opening ≠ []) (close : Char)
    (kind : String → TokenKind) (complaint : String) (cs : List Char) :
    (Lexeme.quoted opening close kind complaint cs).Cuts (opening ++ cs) := by
  unfold Lexeme.quoted
  split
  · next found h => simp [Cuts, hOpening, quotedText_append_rest h]
  · simp [Cuts, hOpening]

/-- A block comment, also one that nothing closes, is cut off the front. -/
theorem blockComment {opening : List Char} (hOpening : opening ≠ []) (cs : List Char) :
    (Lexeme.blockComment opening cs).Cuts (opening ++ cs) := by
  unfold Lexeme.blockComment
  split
  · next text rest h => simp [Cuts, hOpening, blockEnd_append_rest h]
  · simp [Cuts, hOpening]

/-- A number is cut off the front; its first digit is there. -/
theorem number {c : Char} (hDigit : c.isDigit = true) (cs : List Char) :
    (Lexeme.number (c :: cs)).Cuts (c :: cs) := by
  refine ⟨by simp [Lexeme.number, hDigit], ?_⟩
  simp only [Lexeme.number, List.append_assoc]
  rw [List.prefix_iff_eq_append.1 (exponentPart_isPrefix _),
    List.prefix_iff_eq_append.1 (fractionPart_isPrefix _), List.takeWhile_append_dropWhile]

end Cuts

/-- The next token takes at least one character, and its text followed by the rest is the text
that was scanned. -/
theorem scan_cuts (c : Char) (cs : List Char) : (scan c cs).Cuts (c :: cs) := by
  have one : [c] ≠ [] := List.cons_ne_nil _ _
  have two (d : Char) : [c, d] ≠ [] := List.cons_ne_nil _ _
  unfold scan quotedString delimitedName
  split
  · exact Cuts.run one _ _ cs
  split
  · exact Cuts.run one _ _ cs
  split
  · next h =>
      obtain ⟨ds, rfl⟩ := List.head?_eq_some_iff.1 h.2
      exact Cuts.blockComment (two '*') ds
  split
  · exact ⟨List.cons_ne_nil _ _, congrArg (c :: ·) (List.take_append_drop 1 cs)⟩
  · exact ⟨one, rfl⟩
  split
  · exact Cuts.quoted one _ _ _ cs
  split
  · next h =>
      obtain ⟨ds, rfl⟩ := List.head?_eq_some_iff.1 h.2
      exact Cuts.quoted (two '\'') _ _ _ ds
  split
  · exact Cuts.quoted one _ _ _ cs
  split
  · exact Cuts.quoted one _ _ _ cs
  split
  · exact Cuts.run one _ _ cs
  split
  · next h => exact Cuts.number h cs
  split
  · exact Cuts.run one _ _ cs
  · exact ⟨one, rfl⟩

/-- The text behind the next token is shorter than the text that was scanned. -/
theorem scan_rest_length_lt (c : Char) (cs : List Char) :
    (scan c cs).rest.length < (c :: cs).length := by
  obtain ⟨taken, kept⟩ := scan_cuts c cs
  have hTaken := List.length_pos_iff.2 taken
  have hKept := congrArg List.length kept
  rw [List.length_append] at hKept
  omega

end Lexeme

end SelectTree
