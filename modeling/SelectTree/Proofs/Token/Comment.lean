/-
Module: SelectTree.Proofs.Token.Comment
Purpose: what is a comment in a source, and what is not.
Main exports: Lexeme.EndsFirst, WrittenComment, Lexeme.scan_comment, Token.Outside, Token.StandsIn,
  comments_delimited

Whether a text is a comment depends on the text and on what is behind it, and on the place, which
must not be inside another token.  Wherever that is so, the scanner comes to the place, since no
token goes across it.
-/
import SelectTree.Proofs.Token.Quoting

namespace SelectTree

namespace Lexeme

/-! ### The end of a block comment -/

/-- In what follows the opening of a block comment, no `*/` begins earlier than the one behind the
body. -/
def EndsFirst (body behind : List Char) : Prop :=
  ∀ front rest, body ++ '*' :: '/' :: behind = front ++ '*' :: '/' :: rest →
    body.length ≤ front.length

theorem endsFirst_cons {c : Char} {body behind : List Char} :
    EndsFirst (c :: body) behind ↔
      ¬ (c = '*' ∧ (body ++ '*' :: '/' :: behind).head? = some '/') ∧ EndsFirst body behind := by
  constructor
  · intro first
    constructor
    · rintro ⟨rfl, slash⟩
      obtain ⟨rest, parts⟩ := List.head?_eq_some_iff.1 slash
      have earlier := first [] rest (congrArg ('*' :: ·) parts)
      cases earlier
    · intro front rest same
      have longer := first (c :: front) rest (congrArg (c :: ·) same)
      exact Nat.le_of_succ_le_succ longer
  · rintro ⟨notHere, first⟩ front rest same
    cases front with
    | nil =>
        obtain ⟨rfl, behindStar⟩ := List.cons.inj same
        exact absurd ⟨rfl, congrArg List.head? behindStar⟩ notHere
    | cons d front => exact Nat.succ_le_succ (first front rest (List.cons.inj same).2)

/-- The scanner finds the first end. -/
theorem blockEnd?_of_endsFirst {body behind : List Char} (first : EndsFirst body behind) :
    blockEnd? (body ++ '*' :: '/' :: behind) = some (body ++ ['*', '/'], behind) := by
  induction body with
  | nil => simp [blockEnd?]
  | cons c body ih =>
      obtain ⟨notHere, further⟩ := endsFirst_cons.1 first
      rw [List.cons_append, blockEnd?, if_neg notHere, ih further]
      rfl

/-- What the scanner finds is the first end. -/
theorem exists_endsFirst {cs text rest : List Char} (found : blockEnd? cs = some (text, rest)) :
    ∃ body, text = body ++ ['*', '/'] ∧ EndsFirst body rest := by
  fun_induction blockEnd? cs generalizing text rest with
  | case1 => cases found
  | case2 c cs closes =>
      cases found
      exact ⟨[], by rw [closes.1, List.nil_append], fun _ _ _ => Nat.zero_le _⟩
  | case3 c cs open_ ih =>
      obtain ⟨⟨inner, behind⟩, foundBehind, same⟩ := Option.map_eq_some_iff.1 found
      cases same
      obtain ⟨body, rfl, first⟩ := ih foundBehind
      have kept := blockEnd_append_rest foundBehind
      rw [List.append_assoc] at kept
      exact ⟨c :: body, rfl, endsFirst_cons.2 ⟨kept ▸ open_, first⟩⟩

theorem blockEnd?_eq_none {cs : List Char}
    (noEnd : ∀ front rest, cs ≠ front ++ '*' :: '/' :: rest) :
    blockEnd? cs = none := by
  refine Option.eq_none_iff_forall_ne_some.2 fun ⟨text, rest⟩ found => ?_
  obtain ⟨body, rfl, _⟩ := exists_endsFirst found
  have kept := blockEnd_append_rest found
  rw [List.append_assoc] at kept
  exact noEnd body rest kept.symm

end Lexeme

/-! ### Comments -/

/-- The text is a comment in front of what is behind it: it begins with two dashes, has no line
break and ends at one or at the end of the source, or it ends with the first `*/` behind the `/*`
that it begins with. -/
inductive WrittenComment : List Char → List Char → Prop where
  | line {body behind : List Char} : '\n' ∉ body → (∀ c ∈ behind.head?, c = '\n') →
      WrittenComment ('-' :: '-' :: body) behind
  | block {body behind : List Char} : Lexeme.EndsFirst body behind →
      WrittenComment ('/' :: '*' :: (body ++ ['*', '/'])) behind

namespace Lexeme

theorem scan_line (cs : List Char) :
    scan '-' ('-' :: cs) = run ['-', '-'] (· != '\n') (fun _ => .comment) cs := by
  have notBlank : Character.isBlank '-' = false := by decide +kernel
  simp [scan, notBlank, run]

theorem scan_block (cs : List Char) : scan '/' ('*' :: cs) = blockComment ['/', '*'] cs := by
  have notBlank : Character.isBlank '/' = false := by decide +kernel
  simp [scan, notBlank]

theorem scan_block_unclosed {body : List Char}
    (noEnd : ∀ front rest, body ≠ front ++ '*' :: '/' :: rest) :
    scan '/' ('*' :: body) =
      { kind := .error "Unterminated block comment", text := '/' :: '*' :: body, rest := [] } := by
  rw [scan_block, blockComment, blockEnd?_eq_none noEnd]
  rfl

/-- A comment is read as one, whatever its body is. -/
theorem scan_comment {text behind : List Char} (written : WrittenComment text behind) :
    ∃ c cs, text ++ behind = c :: cs ∧ scan c cs = { kind := .comment, text, rest := behind } := by
  cases written with
  | @line body _ unbroken ends =>
      have inside : ∀ c ∈ body, (c != '\n') = true := by
        intro c member
        exact bne_iff_ne.2 fun same => unbroken (same ▸ member)
      obtain ⟨taken, left⟩ :
          behind.takeWhile (· != '\n') = [] ∧ behind.dropWhile (· != '\n') = behind := by
        cases behind with
        | nil => exact ⟨rfl, rfl⟩
        | cons c cs => simp [ends c rfl]
      refine ⟨'-', '-' :: (body ++ behind), rfl, ?_⟩
      rw [scan_line, run, List.takeWhile_append_of_pos inside, List.dropWhile_append_of_pos inside,
        taken, left, List.append_nil]
      rfl
  | @block body _ first =>
      have opened : '/' :: '*' :: (body ++ ['*', '/']) ++ behind =
          '/' :: '*' :: (body ++ '*' :: '/' :: behind) := by
        simp
      refine ⟨'/', _, opened, ?_⟩
      rw [scan_block, blockComment, blockEnd?_of_endsFirst first]
      rfl

/-- What is read as a comment is one. -/
theorem written_of_comment {c : Char} {cs : List Char} (isComment : (scan c cs).kind = .comment) :
    WrittenComment (scan c cs).text (scan c cs).rest := by
  have scanned : Scanned c cs .trivia (scan c cs) :=
    scanned_of_sort (congrArg TokenKind.sort isComment) nofun
  generalize scan c cs = lexeme at isComment scanned ⊢
  cases scanned with
  | blank => cases isComment
  | lineComment isDash next =>
      subst isDash
      obtain ⟨ds, rfl⟩ := List.head?_eq_some_iff.1 next
      have unbroken : '\n' ∉ ds.takeWhile (· != '\n') := by
        intro inside
        have member := List.all_eq_true.1 (List.all_takeWhile (p := (· != '\n')) (l := ds)) _ inside
        cases member
      have ends : ∀ c ∈ (ds.dropWhile (· != '\n')).head?, c = '\n' := by
        intro c isNext
        have stops := List.head?_dropWhile_not (· != '\n') ds
        rw [Option.mem_def.1 isNext] at stops
        simpa using stops
      exact .line unbroken ends
  | blockComment isSlash next =>
      subst isSlash
      unfold blockComment at isComment ⊢
      split at isComment
      · next text rest found =>
          obtain ⟨body, rfl, first⟩ := exists_endsFirst found
          exact .block first
      · cases isComment

end Lexeme

/-! ### Places outside the tokens -/

namespace Token

/-- The place is not inside a token: each token ends there or before, or begins there or behind. -/
def Outside (tokens : List Token) (place : Nat) : Prop :=
  ∀ token ∈ tokens, token.span.stop ≤ place ∨ place ≤ token.span.start

/-- The text stands in the source behind one text and before another one, and it does not begin
inside a token. -/
def StandsIn (source : String) (before text behind : List Char) : Prop :=
  source.toList = before ++ (text ++ behind) ∧
    Outside (TokenStream.ofString source).merged (byteLength before)

theorem eq_nil_of_byteLength {text : List Char} (none : byteLength text = 0) : text = [] := by
  rw [byteLength_eq, String.utf8ByteSize_eq_zero_iff] at none
  simpa using congrArg String.toList none

/-- What is outside the tokens is scanned from there on, by induction on the tokens in front of
it. -/
theorem scanFrom_of_outside {offset : Nat} {before behind : List Char}
    (outside : Outside (scanFrom offset (before ++ behind)) (offset + byteLength before)) :
    ∃ front, scanFrom offset (before ++ behind) =
      front ++ scanFrom (offset + byteLength before) behind := by
  generalize whole : before ++ behind = source at outside
  induction source using scan_induction generalizing offset before with
  | nil =>
      obtain ⟨rfl, rfl⟩ := List.append_eq_nil_iff.1 whole
      exact ⟨[], rfl⟩
  | cons c cs ih =>
      cases before with
      | nil => exact ⟨[], by rw [← whole]; rfl⟩
      | cons d before =>
          obtain ⟨_, kept⟩ := Lexeme.scan_cuts c cs
          rw [scanFrom_cons] at outside ⊢
          have further : 0 < byteLength (d :: before) := by
            refine Nat.pos_of_ne_zero fun none => ?_
            cases eq_nil_of_byteLength none
          have ends : (ofLexeme offset (Lexeme.scan c cs)).span.stop ≤
              offset + byteLength (d :: before) := by
            rcases outside _ List.mem_cons_self with ends | begins
            · exact ends
            · have start : offset + byteLength (d :: before) ≤ offset := begins
              omega
          have fits : byteLength (Lexeme.scan c cs).text ≤ byteLength (d :: before) :=
            Nat.le_of_add_le_add_left ends
          -- The first token ends before the place, so what is left of the text is behind it.
          obtain ⟨more, isBefore, isRest⟩ : ∃ more, d :: before = (Lexeme.scan c cs).text ++ more ∧
              more ++ behind = (Lexeme.scan c cs).rest := by
            rcases List.append_eq_append_iff.1 (whole.trans kept.symm) with
              ⟨beyond, isText, isBehind⟩ | ⟨more, isBefore, isRest⟩
            · rw [isText, byteLength_append] at fits
              have nothing : byteLength beyond = 0 := by omega
              obtain rfl := eq_nil_of_byteLength nothing
              exact ⟨[], by rw [isText, List.append_nil, List.append_nil], isBehind⟩
            · exact ⟨more, isBefore, isRest.symm⟩
          rw [isBefore, byteLength_append, ← Nat.add_assoc] at outside ⊢
          obtain ⟨front, same⟩ := ih isRest fun token member =>
            outside token (List.mem_cons_of_mem _ member)
          exact ⟨_ :: front, by rw [same, List.cons_append]⟩

/-- A token begins where the text stands, with what is behind it. -/
theorem StandsIn.exists_tokens {source : String} {before text behind cs : List Char} {c : Char}
    (stands : StandsIn source before text behind) (begins : text ++ behind = c :: cs) :
    ∃ front, scanAll source.toList = front ++ ofLexeme (byteLength before) (Lexeme.scan c cs) ::
      scanFrom (byteLength before + byteLength (Lexeme.scan c cs).text)
        (Lexeme.scan c cs).rest := by
  obtain ⟨parts, outside⟩ := stands
  rw [TokenStream.merged_ofString, parts, begins, ← Nat.zero_add (byteLength before)] at outside
  obtain ⟨front, same⟩ := scanFrom_of_outside outside
  rw [scanFrom_cons, Nat.zero_add] at same
  exact ⟨front, by rw [parts, begins]; exact same⟩

theorem StandsIn.mem_scanAll {source : String} {before text behind cs : List Char} {c : Char}
    {lexeme : Lexeme} (stands : StandsIn source before text behind)
    (begins : text ++ behind = c :: cs) (scanned : Lexeme.scan c cs = lexeme) :
    ofLexeme (byteLength before) lexeme ∈ scanAll source.toList := by
  obtain ⟨front, tokens⟩ := stands.exists_tokens begins
  rw [tokens, scanned]
  exact List.mem_append_right _ List.mem_cons_self

/-- Only the last token can be one whose end is missing. -/
theorem Covers.isUnclosed_eq_false {offset : Nat} {front behind : List Token} {source : String}
    (covers : Covers offset (front ++ behind) source) (further : behind ≠ []) :
    ∀ token ∈ front, token.kind.isUnclosed = false := by
  intro token member
  obtain ⟨first, others, rfl⟩ := List.append_of_mem member
  cases unclosed : token.kind.isUnclosed with
  | false => rfl
  | true =>
      have parts : first ++ token :: others ++ behind = first ++ token :: (others ++ behind) := by
        rw [List.append_assoc, List.cons_append]
      have nothing := covers.eq_nil_of_unclosed parts unclosed
      exact absurd (List.append_eq_nil_iff.1 nothing).2 further

/-- The tokens do not overlap. -/
def Apart (token other : Token) : Prop :=
  token.span.stop ≤ other.span.start ∨ other.span.stop ≤ token.span.start

instance : Std.Symm Apart := ⟨fun _ _ => Or.symm⟩

theorem Covers.apart {offset : Nat} {tokens : List Token} {source : String}
    (covers : Covers offset tokens source) {token other : Token} (member : token ∈ tokens)
    (otherMember : other ∈ tokens) (differ : token ≠ other) : token.Apart other := by
  have either : tokens.Pairwise Apart := covers.ordered.imp .inl
  exact either.forall member otherMember differ

theorem Covers.outside_start {offset : Nat} {tokens : List Token} {source : String}
    (covers : Covers offset tokens source) {token : Token} (member : token ∈ tokens) :
    Outside tokens token.span.start := by
  intro other otherMember
  by_cases same : other = token
  · exact .inr (same ▸ Nat.le_refl _)
  · rcases covers.apart otherMember member same with before | behind
    · exact .inl before
    · exact .inr (Nat.le_trans (Nat.le_of_lt (covers.start_lt_stop member)) behind)

end Token

/-- What is a comment in a source, whatever the source is.  The comment tokens are the comments that
stand outside the other tokens, and every comment that stands there is one.  A `/*` that stands
there without a `*/` behind it is text to the end of the source, with a complaint; it is the last
token, and the only one whose end is missing.  And a quoted text that stands there is a token,
whatever is in it.  No comment shares a character with another token: none begins inside quoted
text, and no quoted text begins inside a comment. -/
theorem comments_delimited (source : String) :
    let stream := TokenStream.ofString source
    (∀ token, token ∈ stream.trivia ∧ token.kind = .comment ↔
      ∃ before text behind, Token.StandsIn source before text behind ∧
        WrittenComment text behind ∧
        token = .ofLexeme (byteLength before) { kind := .comment, text, rest := behind }) ∧
      (∀ before body, Token.StandsIn source before ('/' :: '*' :: body) [] →
        (∀ front rest, body ≠ front ++ '*' :: '/' :: rest) →
        ∃ front, stream.merged = front ++ [.ofLexeme (byteLength before)
            { kind := .error "Unterminated block comment", text := '/' :: '*' :: body
              rest := [] }] ∧
          ∀ token ∈ front, token.kind.isUnclosed = false) ∧
      (∀ (quoting : Quoting) (before contents behind : List Char),
        Token.StandsIn source before (quoting.characters contents) behind →
        behind.head? ≠ some quoting.close →
        .ofLexeme (byteLength before)
          { kind := quoting.kind (String.ofList contents), text := quoting.characters contents,
            rest := behind } ∈ stream.tokens) ∧
      ∀ comment ∈ stream.trivia, ∀ token ∈ stream.tokens, comment.Apart token := by
  intro stream
  have covers := TokenStream.covers_scanAll source
  have merged : stream.merged = Token.scanAll source.toList := TokenStream.merged_ofString source
  refine ⟨fun token => ⟨?isWritten, ?isToken⟩, ?unclosed, ?quoted, ?apart⟩
  case isWritten =>
    rintro ⟨isTrivia, isComment⟩
    have member := List.mem_of_mem_filter isTrivia
    obtain ⟨before, c, cs, parts, rfl⟩ := Token.exists_split_of_mem member
    have outside := covers.outside_start member
    rw [← merged, Nat.zero_add] at outside
    refine ⟨before, _, _, ⟨?_, outside⟩, Lexeme.written_of_comment isComment, ?_⟩
    · rw [parts, (Lexeme.scan_cuts c cs).2]
    · rw [Nat.zero_add, ← isComment]
      rfl
  case isToken =>
    rintro ⟨before, text, behind, stands, written, rfl⟩
    obtain ⟨c, cs, begins, scanned⟩ := Lexeme.scan_comment written
    exact ⟨List.mem_filter.2 ⟨stands.mem_scanAll begins scanned, rfl⟩, rfl⟩
  case unclosed =>
    intro before body stands noEnd
    obtain ⟨front, tokens⟩ := stands.exists_tokens (List.append_nil _)
    rw [Lexeme.scan_block_unclosed noEnd, Token.scanFrom_nil] at tokens
    rw [tokens] at covers
    exact ⟨front, merged.trans tokens, covers.isUnclosed_eq_false (List.cons_ne_nil _ _)⟩
  case quoted =>
    intro quoting before contents behind stands ends
    have begins : quoting.characters contents ++ behind = quoting.first ::
        (quoting.lead ++
          (QuotedText.doubled quoting.close contents ++ quoting.close :: behind)) := by
      simp [Quoting.characters, Quoting.opening]
    have member := stands.mem_scanAll begins (Lexeme.scan_characters quoting contents ends)
    exact List.mem_filter.2 ⟨member, by simp [Token.ofLexeme, quoting.matters_kind]⟩
  case apart =>
    intro comment isTrivia token matters
    obtain ⟨member, trivia⟩ := List.mem_filter.1 isTrivia
    obtain ⟨otherMember, notTrivia⟩ := List.mem_filter.1 matters
    refine covers.apart member otherMember ?_
    rintro rfl
    simp [trivia] at notTrivia

/-- The `/` right behind the opening does not close a comment, and the dashes in it begin none. -/
example :
    (TokenStream.ofString "/*/ -- '*/1").trivia.map Token.text = ["/*/ -- '*/"] := by
  decide +kernel

end SelectTree
