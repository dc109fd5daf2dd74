/-
Module: SelectTree.Proofs.Token.Respelling
Purpose: tokens of a source, written one behind the other with spaces for the gaps, are the same
  tokens again.
Main exports: Token.spelling, Token.Respelled, TokenStream.ReadsAs, Token.Respelled.readsAs,
  Words.exists_respelled, Token.toUpper_of_keyword
-/
import SelectTree.Proofs.Token.Lookahead
import SelectTree.Proofs.Token.Tiling
import SelectTree.Word

namespace SelectTree

namespace Token

/-- What a token is and how it is written, wherever it stands. -/
def spelling (token : Token) : TokenKind × String :=
  (token.kind, token.text)

/-- The tokens are written one behind the other, with at least one space between tokens that do not
touch, and with any number of spaces between tokens that do. -/
inductive Respelled : List Token → String → Prop where
  | nil : Respelled [] ""
  | single (token : Token) : Respelled [token] token.text
  | cons {token next : Token} {tokens : List Token} {text : String} (gap : Nat) :
      (token.span.touches next.span = false → 0 < gap) → Respelled (next :: tokens) text →
      Respelled (token :: next :: tokens)
        (token.text ++ String.ofList (List.replicate gap ' ') ++ text)

/-- The token matters to the grammar. -/
def matters (token : Token) : Bool :=
  !token.kind.isTrivia

/-- The text from a byte offset on is cut into these tokens, with nothing but white space between
them. -/
def CutsInto (offset : Nat) (text : List Char) (tokens : List Token) : Prop :=
  ((scanFrom offset text).filter matters).map spelling = tokens.map spelling ∧
    ∀ token ∈ scanFrom offset text, token.kind ≠ .comment

end Token

/-- The text is cut into these tokens, and there is no comment in it. -/
def TokenStream.ReadsAs (text : String) (tokens : List Token) : Prop :=
  (ofString text).tokens.map Token.spelling = tokens.map Token.spelling ∧
    ∀ token ∈ (ofString text).trivia, token.kind ≠ .comment

namespace Lexeme

/-- The text of the next token is a front of the text that is scanned. -/
theorem exists_text_eq (c : Char) (cs : List Char) :
    ∃ text, (scan c cs).text = c :: text ∧ cs = text ++ (scan c cs).rest := by
  obtain ⟨taken, kept⟩ := scan_cuts c cs
  obtain ⟨first, text, parts⟩ := List.exists_cons_of_ne_nil taken
  rw [parts, List.cons_append] at kept
  obtain ⟨rfl, rest⟩ := List.cons.inj kept
  exact ⟨text, parts, rest.symm⟩

theorem scan_of_isBlank {c : Char} (blank : Character.isBlank c = true) (cs : List Char) :
    scan c cs = run [c] Character.isBlank (fun _ => .whitespace) cs := by
  rw [scan_eq, if_pos blank]

theorem not_isBlank_of_matters {c : Char} {cs : List Char}
    (matters : (scan c cs).kind.isTrivia = false) : Character.isBlank c = false := by
  by_contra blank
  rw [scan_of_isBlank (Bool.not_eq_false _ ▸ blank)] at matters
  cases matters

end Lexeme

namespace Token

/-- Spaces in front of a token are one token of white space. -/
theorem scanFrom_spaces (offset gap : Nat) {c : Char} (cs : List Char)
    (notBlank : Character.isBlank c = false) :
    ∃ stop, scanFrom offset (List.replicate (gap + 1) ' ' ++ c :: cs) =
      ofLexeme offset
          { kind := .whitespace, text := List.replicate (gap + 1) ' ', rest := c :: cs } ::
        scanFrom stop (c :: cs) := by
  have space : Character.isBlank ' ' = true := by decide +kernel
  have scanned : Lexeme.scan ' ' (List.replicate gap ' ' ++ c :: cs) =
      { kind := .whitespace, text := List.replicate (gap + 1) ' ', rest := c :: cs } := by
    rw [Lexeme.scan_of_isBlank space, Lexeme.run]
    simp [notBlank, space, List.replicate_succ]
  refine ⟨offset + byteLength (List.replicate (gap + 1) ' '), ?_⟩
  rw [List.replicate_succ, List.cons_append, scanFrom_cons, scanned]
  rfl

/-- The token is the next one of the text `c :: cs`, which begins at a byte offset, and matters. -/
structure StandsAt (token : Token) (start : Nat) (c : Char) (cs : List Char) : Prop where
  eq_ofLexeme : token = ofLexeme start (Lexeme.scan c cs)
  matters : (Lexeme.scan c cs).kind.isTrivia = false

/-- The tokens that matter behind the next token of a text. -/
def behind (start : Nat) (c : Char) (cs : List Char) : List Token :=
  (scanFrom (start + byteLength (Lexeme.scan c cs).text) (Lexeme.scan c cs).rest).filter matters

/-- The first token that matters is the next one of some text, of the whole one if nothing is in
front of it. -/
theorem exists_standsAt {offset : Nat} {source : List Char} {token : Token} {others : List Token}
    (found : (scanFrom offset source).filter matters = token :: others) :
    ∃ start c cs, token.StandsAt start c cs ∧ others = behind start c cs ∧ offset ≤ start ∧
      (start = offset → source = c :: cs) := by
  induction source using scan_induction generalizing offset with
  | nil => cases found
  | cons c cs ih =>
      rw [scanFrom_cons] at found
      cases isTrivia : (Lexeme.scan c cs).kind.isTrivia with
      | false =>
          rw [List.filter_cons_of_pos (by simp [matters, ofLexeme, isTrivia])] at found
          obtain ⟨rfl, rfl⟩ := List.cons.inj found
          exact ⟨offset, c, cs, ⟨rfl, isTrivia⟩, rfl, Nat.le_refl _, fun _ => rfl⟩
      | true =>
          rw [List.filter_cons_of_neg (by simp [matters, ofLexeme, isTrivia])] at found
          obtain ⟨start, d, ds, stands, same, after, _⟩ := ih found
          refine ⟨start, d, ds, stands, same, by omega, fun first => ?_⟩
          obtain ⟨text, taken, _⟩ := Lexeme.exists_text_eq c cs
          have bytes : 0 < byteLength (Lexeme.scan c cs).text := by
            rw [taken, byteLength, List.foldr_cons]
            have := c.utf8Size_pos
            omega
          omega

/-- Wherever one looks among the tokens that matter, the first of them is the next one of some
text. -/
theorem exists_standsAt_of_suffix {offset : Nat} {source : List Char} {token : Token}
    {front others : List Token}
    (found : (scanFrom offset source).filter matters = front ++ token :: others) :
    ∃ start c cs, token.StandsAt start c cs ∧ others = behind start c cs := by
  induction front generalizing offset source with
  | nil =>
      obtain ⟨start, c, cs, stands, same, _⟩ := exists_standsAt found
      exact ⟨start, c, cs, stands, same⟩
  | cons first front ih =>
      obtain ⟨start, c, cs, _, same, _⟩ := exists_standsAt found
      exact ih same.symm

theorem Respelled.exists_eq_append {token : Token} {tokens : List Token} {text : String}
    (respelled : Respelled (token :: tokens) text) : ∃ more, text = token.text ++ more := by
  cases respelled with
  | single => exact ⟨"", by simp⟩
  | cons gap _ _ => exact ⟨_, String.append_assoc ..⟩

/-! ### Cutting the new text -/

theorem StandsAt.toList_text {token : Token} {start : Nat} {c : Char} {cs : List Char}
    (stands : token.StandsAt start c cs) : token.text.toList = (Lexeme.scan c cs).text := by
  rw [stands.eq_ofLexeme, ofLexeme, String.toList_ofList]

theorem CutsInto.nil (offset : Nat) : CutsInto offset [] [] :=
  ⟨rfl, nofun⟩

/-- A token is cut off in front of every text that mirrors what was behind it. -/
theorem CutsInto.cons {token : Token} {tokens : List Token} {start : Nat} {c : Char}
    {cs new : List Char} (stands : token.StandsAt start c cs)
    (mirrors : Mirrors (Lexeme.scan c cs).rest new) (cut : ∀ offset, CutsInto offset new tokens)
    (offset : Nat) : CutsInto offset (token.text.toList ++ new) (token :: tokens) := by
  obtain ⟨written, taken, kept⟩ := Lexeme.exists_text_eq c cs
  have scanned : Lexeme.scan c (written ++ new) = { Lexeme.scan c cs with rest := new } := by
    rw [kept]
    apply Lexeme.scan_mirrors
    · rw [← kept, taken]
    · rw [← kept, stands.matters]
    · exact mirrors
  have isToken : spelling (ofLexeme offset (Lexeme.scan c (written ++ new))) = spelling token := by
    rw [scanned, stands.eq_ofLexeme]
    rfl
  have isMatter : matters (ofLexeme offset (Lexeme.scan c (written ++ new))) = true := by
    rw [scanned]
    simp [matters, ofLexeme, stands.matters]
  rw [stands.toList_text, taken, List.cons_append, CutsInto, scanFrom_cons,
    List.filter_cons_of_pos isMatter, List.map_cons, List.map_cons, isToken, scanned]
  obtain ⟨same, noComment⟩ := cut (offset + byteLength (Lexeme.scan c cs).text)
  refine ⟨congrArg _ same, ?_⟩
  intro other member
  rcases List.mem_cons.1 member with rfl | member
  · rintro comment
    have := stands.matters
    rw [show (Lexeme.scan c cs).kind = .comment from comment] at this
    cases this
  · exact noComment other member

/-- Spaces in front change nothing. -/
theorem CutsInto.spaces {tokens : List Token} {c : Char} {cs : List Char}
    (notBlank : Character.isBlank c = false) (cut : ∀ offset, CutsInto offset (c :: cs) tokens)
    (gap offset : Nat) : CutsInto offset (List.replicate gap ' ' ++ c :: cs) tokens := by
  cases gap with
  | zero => exact cut offset
  | succ gap =>
      obtain ⟨stop, scanned⟩ := scanFrom_spaces offset gap cs notBlank
      obtain ⟨same, noComment⟩ := cut stop
      rw [CutsInto, scanned,
        List.filter_cons_of_neg (by simp [matters, ofLexeme, TokenKind.isTrivia])]
      refine ⟨same, ?_⟩
      intro other member
      rcases List.mem_cons.1 member with rfl | member
      · intro isComment
        cases isComment
      · exact noComment other member

/-- Tokens that are written again are cut out of the new text again, and up to its first gap the new
text is the old one. -/
theorem Respelled.cutsInto {tokens : List Token} {text : String}
    (respelled : Respelled tokens text) {token : Token} {others more : List Token} {start : Nat}
    {c : Char} {cs : List Char} (parts : tokens = token :: others)
    (stands : token.StandsAt start c cs) (follow : behind start c cs = others ++ more) :
    Mirrors (c :: cs) text.toList ∧ ∀ offset, CutsInto offset text.toList tokens := by
  induction respelled generalizing token others start c cs with
  | nil => cases parts
  | single first =>
      obtain ⟨rfl, rfl⟩ := List.cons.inj parts
      have nothing := Mirrors.nil (Lexeme.scan c cs).rest
      constructor
      · have mirrors := nothing.append_left first.text.toList
        rwa [stands.toList_text, (Lexeme.scan_cuts c cs).2, List.append_nil,
          ← stands.toList_text] at mirrors
      · intro offset
        have cut := CutsInto.cons stands nothing .nil offset
        rwa [List.append_nil] at cut
  | @cons first next later text gap apart respelled ih =>
      obtain ⟨rfl, rfl⟩ := List.cons.inj parts
      obtain ⟨start', d, ds, standsNext, followNext, after, adjacent⟩ := exists_standsAt follow
      obtain ⟨mirrors, cut⟩ := ih rfl standsNext followNext.symm
      obtain ⟨more, begins⟩ := respelled.exists_eq_append
      obtain ⟨written, taken, kept⟩ := Lexeme.exists_text_eq d ds
      have newText : text.toList = d :: (written ++ more.toList) := by
        rw [begins, String.toList_append, standsNext.toList_text, taken, List.cons_append]
      have notBlank := Lexeme.not_isBlank_of_matters standsNext.matters
      -- Up to the next token the new text has either nothing or a space.
      have mirrorsRest : Mirrors (Lexeme.scan c cs).rest
          (List.replicate gap ' ' ++ text.toList) := by
        cases gap with
        | zero =>
            have touches : first.span.touches next.span = true := by
              by_contra gaps
              exact Nat.lt_irrefl 0 (apart (Bool.eq_false_iff.2 gaps))
            rw [stands.eq_ofLexeme, standsNext.eq_ofLexeme, Span.touches, beq_iff_eq] at touches
            rw [adjacent touches.symm]
            exact mirrors
        | succ gap =>
            cases rest : (Lexeme.scan c cs).rest with
            | nil =>
                rw [behind, rest] at follow
                cases follow
            | cons e es => exact .inl rfl
      rw [newText] at cut
      have cutRest := CutsInto.spaces notBlank cut gap
      rw [← newText] at cutRest
      rw [String.toList_append, String.toList_append, String.toList_ofList, List.append_assoc]
      constructor
      · have whole := mirrorsRest.append_left first.text.toList
        rwa [stands.toList_text, (Lexeme.scan_cuts c cs).2, ← stands.toList_text] at whole
      · exact CutsInto.cons stands mirrorsRest cutRest

/-- A stretch of the tokens of a source that is written again is read again. -/
theorem Respelled.readsAs {source text : String} {range : List Token}
    (stretch : range <:+: (TokenStream.ofString source).tokens)
    (respelled : Respelled range text) : TokenStream.ReadsAs text range := by
  have noComments (stream : List Token) (noComment : ∀ token ∈ stream, token.kind ≠ .comment) :
      ∀ token ∈ stream.filter fun token => token.kind.isTrivia, token.kind ≠ .comment :=
    fun token member => noComment token (List.mem_of_mem_filter member)
  cases range with
  | nil =>
      cases respelled
      exact ⟨rfl, nofun⟩
  | cons token others =>
      obtain ⟨front, more, parts⟩ := stretch
      rw [List.append_assoc, List.cons_append] at parts
      obtain ⟨start, c, cs, stands, follow⟩ := exists_standsAt_of_suffix parts.symm
      obtain ⟨same, noComment⟩ := (respelled.cutsInto rfl stands follow.symm).2 0
      exact ⟨same, noComments _ noComment⟩

end Token

/-! ### Stretches of words -/

/-- What a word is and how it is written. -/
def Word.spelling (word : Word) : TokenKind × String :=
  (word.kind, word.text)

namespace Words

/-- Words are spelled as their tokens. -/
theorem map_spelling (stop : Option Nat) (index : Nat) (tokens : List Token) :
    (ofTokensBehind stop index tokens).map Word.spelling = tokens.map Token.spelling := by
  induction tokens generalizing stop index with
  | nil => rfl
  | cons token tokens ih =>
      rw [ofTokensBehind, List.map_cons, List.map_cons, ih]
      rfl

/-- Every word is spelled as some token. -/
theorem exists_token_of_mem {stop : Option Nat} {index : Nat} {tokens : List Token} {word : Word}
    (member : word ∈ ofTokensBehind stop index tokens) :
    ∃ token ∈ tokens, token.spelling = word.spelling := by
  have spelled := List.mem_map_of_mem (f := Word.spelling) member
  rwa [map_spelling, List.mem_map] at spelled

/-- Words and tokens that are spelled alike are of the same kinds. -/
theorem map_kind_eq {words : Words} {tokens : List Token}
    (same : words.map Word.spelling = tokens.map Token.spelling) :
    words.map Word.kind = tokens.map Token.kind := by
  have kinds := congrArg (List.map Prod.fst) same
  rwa [List.map_map, List.map_map] at kinds

theorem map_kind_stream (stream : TokenStream) :
    stream.words.map Word.kind = stream.tokens.map Token.kind :=
  map_kind_eq (map_spelling none 0 stream.tokens)

/-- A front of the words of some tokens is the words of a front of the tokens. -/
theorem exists_of_prefix {tokens : List Token} {words : Words} {stop : Option Nat} {index : Nat}
    (front : words <+: ofTokensBehind stop index tokens) :
    ∃ range, range <+: tokens ∧ words = ofTokensBehind stop index range := by
  induction tokens generalizing words stop index with
  | nil => exact ⟨[], List.nil_prefix, List.prefix_nil.1 front⟩
  | cons token tokens ih =>
      cases words with
      | nil => exact ⟨[], List.nil_prefix, rfl⟩
      | cons word words =>
          rw [ofTokensBehind, List.cons_prefix_cons] at front
          obtain ⟨rfl, front⟩ := front
          obtain ⟨range, begins, rfl⟩ := ih front
          exact ⟨token :: range, List.cons_prefix_cons.2 ⟨rfl, begins⟩, rfl⟩

/-- A stretch of the words of some tokens is the words of a stretch of the tokens. -/
theorem exists_of_infix {tokens : List Token} {words : Words} {stop : Option Nat} {index : Nat}
    (stretch : words <:+: ofTokensBehind stop index tokens) :
    ∃ range, range <:+: tokens ∧ ∃ stop index, words = ofTokensBehind stop index range := by
  induction tokens generalizing stop index with
  | nil =>
      obtain rfl := List.infix_nil.1 stretch
      exact ⟨[], List.infix_refl _, none, 0, rfl⟩
  | cons token tokens ih =>
      rw [ofTokensBehind, List.infix_cons_iff] at stretch
      rcases stretch with front | behind
      · rw [← ofTokensBehind] at front
        obtain ⟨range, begins, same⟩ := exists_of_prefix front
        exact ⟨range, begins.isInfix, stop, index, same⟩
      · obtain ⟨range, inside, same⟩ := ih behind
        exact ⟨range, List.infix_cons inside, same⟩

/-- A word of some tokens knows its place among them, and the words behind it are the words of the
tokens behind. -/
theorem exists_of_suffix {tokens : List Token} {word : Word} {behind : Words} {stop : Option Nat}
    {index : Nat} (suffix : word :: behind <:+ ofTokensBehind stop index tokens) :
    ∃ before token after, tokens = before ++ token :: after ∧
      word.index = index + before.length ∧ word.spelling = token.spelling ∧
      behind = ofTokensBehind (some token.span.stop) (word.index + 1) after := by
  induction tokens generalizing stop index with
  | nil => cases List.suffix_nil.1 suffix
  | cons token tokens ih =>
      rw [ofTokensBehind, List.suffix_cons_iff] at suffix
      rcases suffix with whole | further
      · cases whole
        exact ⟨[], token, tokens, rfl, rfl, rfl, rfl⟩
      · obtain ⟨before, found, after, rfl, place, spelling, rest⟩ := ih further
        refine ⟨token :: before, found, after, rfl, ?_, spelling, rest⟩
        rw [place, List.length_cons]
        omega

/-- The text of words is their tokens, with one space for each gap. -/
theorem respelled_text (tokens : List Token) (stop : Option Nat) (index : Nat) :
    Token.Respelled tokens (ofTokensBehind stop index tokens).text := by
  induction tokens generalizing stop index with
  | nil => exact .nil
  | cons token tokens ih =>
      cases tokens with
      | nil =>
          have single := Token.Respelled.single token
          rwa [← String.append_empty (s := token.text)] at single
      | cons next tokens =>
          have behind := ih (some token.span.stop) (index + 1)
          have text_eq (space : String)
              (isGap : (if token.span.touches next.span then "" else " ") = space) :
              token.text ++ space ++
                  (ofTokensBehind (some token.span.stop) (index + 1) (next :: tokens)).text =
                (ofTokensBehind stop index (token :: next :: tokens)).text := by
            simp only [ofTokensBehind, text, textBehind, Option.some_beq_some, ← isGap,
              Span.touches, String.append_assoc]
            rfl
          cases touches : token.span.touches next.span with
          | true =>
              have glued : token.span.touches next.span = false → 0 < 0 := by simp [touches]
              have respelled := Token.Respelled.cons 0 glued behind
              rwa [text_eq _ (by rw [touches]; rfl)] at respelled
          | false =>
              have apart (_ : token.span.touches next.span = false) : 0 < 1 := Nat.one_pos
              have respelled := Token.Respelled.cons 1 apart behind
              rwa [text_eq _ (by rw [touches]; rfl)] at respelled

/-- A stretch of the words of a source is written as the tokens it comes from, so its text is read
as them. -/
theorem exists_respelled {source : String} {words : Words}
    (stretch : words <:+: (TokenStream.ofString source).words) :
    ∃ range, range <:+: (TokenStream.ofString source).tokens ∧
      words.map Word.spelling = range.map Token.spelling ∧ Token.Respelled range words.text ∧
      TokenStream.ReadsAs words.text range := by
  obtain ⟨range, inside, stop, index, rfl⟩ := exists_of_infix stretch
  have respelled := respelled_text range stop index
  exact ⟨range, inside, map_spelling .., respelled, respelled.readsAs inside⟩

end Words

/-! ### Keywords

A keyword among the tokens of a source is spelled as the keyword, in any case. -/

/-- A word is looked up among the keywords by its text. -/
theorem Lexeme.spelled_of_keyword {c : Char} {cs : List Char} {keyword : Keyword}
    (isKeyword : (scan c cs).kind = .keyword keyword) :
    (scan c cs).text.map Char.toUpper = keyword.text.toList := by
  have scanned : Scanned c cs .word (scan c cs) :=
    scanned_of_sort (congrArg TokenKind.sort isKeyword) nofun
  generalize scan c cs = lexeme at isKeyword scanned ⊢
  cases scanned with
  | word =>
      unfold Lexeme.run wordKind at isKeyword
      dsimp only at isKeyword
      split at isKeyword
      · next found =>
          cases isKeyword
          have spelled := List.find?_some found
          exact (beq_iff_eq.1 spelled).symm
      · cases isKeyword

/-- A keyword in a source is spelled as such. -/
theorem Token.toUpper_of_keyword {source : String} {token : Token} {keyword : Keyword}
    (member : token ∈ (TokenStream.ofString source).tokens)
    (isKeyword : token.kind = .keyword keyword) :
    token.text.toUpper = keyword.text := by
  have scanned : token ∈ scanFrom 0 source.toList := List.mem_of_mem_filter member
  obtain ⟨start, c, cs, rfl⟩ := exists_scan_of_mem scanned
  rw [← String.toList_inj, String.toUpper, String.toList_map, ofLexeme, String.toList_ofList]
  exact Lexeme.spelled_of_keyword isKeyword

theorem Words.toUpper_of_keyword {source : String} {word : Word} {keyword : Keyword}
    (member : word ∈ (TokenStream.ofString source).words)
    (isKeyword : word.kind = .keyword keyword) :
    word.text.toUpper = keyword.text := by
  obtain ⟨token, isToken, same⟩ := exists_token_of_mem member
  obtain ⟨kind, text⟩ := Prod.mk.inj same
  rw [← text]
  exact Token.toUpper_of_keyword isToken (kind.trans isKeyword)

end SelectTree
