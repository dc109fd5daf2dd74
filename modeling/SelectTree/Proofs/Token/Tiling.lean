/-
Module: SelectTree.Proofs.Token.Tiling
Purpose: the tokens of a source cover it without gap and without overlap, whatever the source is.
Main exports: Token.scanFrom, Token.scanFrom_cons, Token.Covers, Token.Tiles, TokenStream.merged,
  tokens_tile, Token.isUpper_of_error
-/
import Mathlib.Data.List.Chain
import SelectTree.Proofs.Token.Origin
import SelectTree.TokenStream

namespace SelectTree

/-- The length is that of the text in UTF-8. -/
theorem byteLength_eq (text : List Char) : byteLength text = (String.ofList text).utf8ByteSize := by
  induction text with
  | nil => rfl
  | cons c cs ih =>
      rw [byteLength, List.foldr_cons, ← byteLength, ih, String.ofList_cons,
        String.utf8ByteSize_append, String.utf8ByteSize_singleton]

theorem byteLength_append (text more : List Char) :
    byteLength (text ++ more) = byteLength text + byteLength more := by
  rw [byteLength_eq, byteLength_eq, byteLength_eq, String.ofList_append, String.utf8ByteSize_append]

/-- The token is text whose end is missing. -/
def TokenKind.isUnclosed (kind : TokenKind) : Bool :=
  kind.complaint?.any fun complaint =>
    complaint ∈ ["Unterminated string literal", "Unterminated delimited identifier",
      "Unterminated block comment"]

/-! ### Text whose end is missing -/

/-- The complaints differ in their third letter. -/
theorem isUnclosed_unexpected (c : Char) :
    (TokenKind.error s!"Unexpected character: {c}").isUnclosed = false := by
  have third : (s!"Unexpected character: {c}").toList[2]? = some 'e' := by
    simp [toString]
  have others : ∀ complaint ∈ ["Unterminated string literal", "Unterminated delimited identifier",
      "Unterminated block comment"], complaint.toList[2]? = some 't' := by
    decide +kernel
  simp only [TokenKind.isUnclosed, TokenKind.complaint?, Option.any_some, decide_eq_false_iff_not]
  intro member
  have differs := others _ member
  rw [third] at differs
  cases differs

/-- Nothing is left behind text whose end is missing. -/
theorem Lexeme.rest_of_isUnclosed {c : Char} {cs : List Char}
    (unclosed : (scan c cs).kind.isUnclosed = true) : (scan c cs).rest = [] := by
  cases kind : (scan c cs).kind with
  | error message =>
      rw [kind] at unclosed
      rcases error_cases kind with ⟨_, ends⟩ | rfl | ⟨rfl, _⟩ | rfl
      · exact ends
      · exact absurd unclosed (by decide +kernel)
      · exact absurd unclosed (by decide +kernel)
      · rw [isUnclosed_unexpected] at unclosed
        cases unclosed
  | _ =>
      rw [kind] at unclosed
      cases unclosed

/-! ### Tokens one behind the other -/

namespace Token

/-- The token that a lexeme is at a byte offset. -/
def ofLexeme (offset : Nat) (lexeme : Lexeme) : Token :=
  { kind := lexeme.kind, text := String.ofList lexeme.text,
    span := { start := offset, stop := offset + byteLength lexeme.text } }

/-- The tokens of a text that begins at a byte offset. -/
def scanFrom (offset : Nat) (source : List Char) : List Token :=
  scanUpTo source.length offset source

/-- The bound on the number of tokens does not matter once it is as large as the text. -/
theorem scanUpTo_eq {count other offset : Nat} {source : List Char}
    (enough : source.length ≤ count) (alsoEnough : source.length ≤ other) :
    scanUpTo count offset source = scanUpTo other offset source := by
  induction count generalizing other offset source with
  | zero =>
      obtain rfl := List.length_eq_zero_iff.1 (Nat.le_zero.1 enough)
      simp [scanUpTo]
  | succ count ih =>
      cases source with
      | nil => simp [scanUpTo]
      | cons c cs =>
          cases other with
          | zero => cases alsoEnough
          | succ other =>
              have shorter := Lexeme.scan_rest_length_lt c cs
              simp only [List.length_cons] at enough alsoEnough shorter
              simp only [scanUpTo]
              have fewer : (Lexeme.scan c cs).rest.length ≤ count := by omega
              have otherFewer : (Lexeme.scan c cs).rest.length ≤ other := by omega
              rw [ih fewer otherFewer]

@[simp] theorem scanFrom_nil (offset : Nat) : scanFrom offset [] = [] := rfl

/-- The first token, and the tokens of what is behind it. -/
theorem scanFrom_cons (offset : Nat) (c : Char) (cs : List Char) :
    scanFrom offset (c :: cs) =
      ofLexeme offset (Lexeme.scan c cs) ::
        scanFrom (offset + byteLength (Lexeme.scan c cs).text) (Lexeme.scan c cs).rest := by
  have shorter := Lexeme.scan_rest_length_lt c cs
  rw [List.length_cons] at shorter
  rw [scanFrom, List.length_cons, scanUpTo, scanFrom, ofLexeme]
  rw [scanUpTo_eq (Nat.le_of_lt_succ shorter) (Nat.le_refl _)]

/-- A property of texts that every text inherits from what is behind its first token. -/
theorem scan_induction {motive : List Char → Prop} (nil : motive [])
    (cons : ∀ c cs, motive (Lexeme.scan c cs).rest → motive (c :: cs)) (source : List Char) :
    motive source := by
  induction length : source.length using Nat.strongRecOn generalizing source with
  | _ count ih =>
    cases source with
    | nil => exact nil
    | cons c cs => exact cons c cs (ih _ (length ▸ Lexeme.scan_rest_length_lt c cs) _ rfl)

/-- Every token of a text is the first one of what is left of the text where the token begins. -/
theorem exists_split_of_mem {offset : Nat} {source : List Char} {token : Token}
    (member : token ∈ scanFrom offset source) :
    ∃ before c cs, source = before ++ c :: cs ∧
      token = ofLexeme (offset + byteLength before) (Lexeme.scan c cs) := by
  induction source using scan_induction generalizing offset with
  | nil => cases member
  | cons c cs ih =>
      rw [scanFrom_cons] at member
      rcases List.mem_cons.1 member with rfl | behind
      · exact ⟨[], c, cs, rfl, rfl⟩
      · obtain ⟨before, d, ds, rest, rfl⟩ := ih behind
        obtain ⟨_, kept⟩ := Lexeme.scan_cuts c cs
        refine ⟨(Lexeme.scan c cs).text ++ before, d, ds, ?_, ?_⟩
        · rw [List.append_assoc, ← rest, kept]
        · rw [byteLength_append, Nat.add_assoc]

/-- Every token is a lexeme that was scanned somewhere. -/
theorem exists_scan_of_mem {offset : Nat} {source : List Char} {token : Token}
    (member : token ∈ scanFrom offset source) :
    ∃ start c cs, token = ofLexeme start (Lexeme.scan c cs) := by
  obtain ⟨before, c, cs, _, same⟩ := exists_split_of_mem member
  exact ⟨_, c, cs, same⟩

/-- The tokens, one behind the other from a byte offset on, are the text; what is not closed is the
last of them. -/
inductive Covers : Nat → List Token → String → Prop where
  | nil (offset : Nat) : Covers offset [] ""
  | cons {offset : Nat} {token : Token} {tokens : List Token} {rest : String} :
      token.text ≠ "" →
      token.span = { start := offset, stop := offset + token.text.utf8ByteSize } →
      (token.kind.isUnclosed = true → tokens = []) →
      Covers token.span.stop tokens rest →
      Covers offset (token :: tokens) (token.text ++ rest)

/-- The tokens of a text cover it, since each lexeme is cut off the front. -/
theorem covers_scanFrom (offset : Nat) (source : List Char) :
    Covers offset (scanFrom offset source) (String.ofList source) := by
  induction source using scan_induction generalizing offset with
  | nil => exact .nil offset
  | cons c cs ih =>
      obtain ⟨taken, kept⟩ := Lexeme.scan_cuts c cs
      rw [scanFrom_cons, ← kept, String.ofList_append]
      refine .cons ?taken ?placed ?closed (ih _)
      case taken => simpa [ofLexeme] using taken
      case placed => rw [ofLexeme, byteLength_eq]
      case closed =>
        intro unclosed
        rw [Lexeme.rest_of_isUnclosed unclosed, scanFrom_nil]

namespace Covers

variable {offset : Nat} {tokens : List Token} {source : String}

/-- Each token is what stands between its offsets. -/
theorem exists_split (covers : Covers offset tokens source) {token : Token}
    (member : token ∈ tokens) :
    ∃ before behind : String, source = before ++ token.text ++ behind ∧ token.text ≠ "" ∧
      token.span.start = offset + before.utf8ByteSize ∧
      token.span.stop = token.span.start + token.text.utf8ByteSize := by
  induction covers with
  | nil offset => cases member
  | @cons offset first others rest solid placed _ _ ih =>
      rcases List.mem_cons.1 member with rfl | member
      · exact ⟨"", rest, by simp, solid, by simp [placed], by simp [placed]⟩
      · obtain ⟨before, behind, rfl, solidToo, starts, stops⟩ := ih member
        refine ⟨first.text ++ before, behind, by simp [String.append_assoc], solidToo, ?_, stops⟩
        rw [starts, placed, String.utf8ByteSize_append, Nat.add_assoc]

theorem start_le (covers : Covers offset tokens source) {token : Token}
    (member : token ∈ tokens) : offset ≤ token.span.start := by
  obtain ⟨before, _, _, _, starts, _⟩ := covers.exists_split member
  exact starts ▸ Nat.le_add_right ..

/-- No token is empty. -/
theorem start_lt_stop (covers : Covers offset tokens source) {token : Token}
    (member : token ∈ tokens) : token.span.start < token.span.stop := by
  obtain ⟨_, _, _, solid, _, stops⟩ := covers.exists_split member
  have bytes := Nat.pos_of_ne_zero fun none => solid (String.utf8ByteSize_eq_zero_iff.1 none)
  omega

theorem head_start (covers : Covers offset tokens source) :
    ∀ token ∈ tokens.head?, token.span.start = offset := by
  cases covers with
  | nil => exact nofun
  | cons _ placed _ _ =>
      rintro token ⟨⟩
      rw [placed]

/-- Each token begins where the one before it ends. -/
theorem touch (covers : Covers offset tokens source) :
    tokens.IsChain fun token next => token.span.touches next.span = true := by
  induction covers with
  | nil => exact .nil
  | cons _ _ _ covers ih =>
      refine List.isChain_cons.2 ⟨fun next isNext => ?_, ih⟩
      rw [Span.touches, covers.head_start next isNext, beq_self_eq_true]

/-- No token begins before one that stands in front of it has ended. -/
theorem ordered (covers : Covers offset tokens source) :
    tokens.Pairwise fun token later => token.span.stop ≤ later.span.start := by
  induction covers with
  | nil => exact .nil
  | cons _ _ _ covers ih => exact .cons (fun later member => covers.start_le member) ih

/-- The last token ends where the text does. -/
theorem last_stop (covers : Covers offset tokens source) :
    (tokens.getLast?.map fun token => token.span.stop).getD offset =
      offset + source.utf8ByteSize := by
  induction covers with
  | nil => simp
  | @cons offset first others rest _ placed _ _ ih =>
      rw [placed] at ih
      rw [List.getLast?_cons, Option.map_some, Option.getD_some, String.utf8ByteSize_append,
        ← Nat.add_assoc, ← ih]
      cases others.getLast? <;> simp [placed]

/-- The texts of the tokens make the text. -/
theorem join (covers : Covers offset tokens source) :
    String.join (tokens.map Token.text) = source := by
  induction covers with
  | nil => rfl
  | cons _ _ _ _ ih => rw [List.map_cons, String.join_cons, ih]

/-- A token that is not closed is the last one. -/
theorem eq_nil_of_unclosed (covers : Covers offset tokens source) {before behind : List Token}
    {token : Token} (parts : tokens = before ++ token :: behind)
    (unclosed : token.kind.isUnclosed = true) : behind = [] := by
  induction covers generalizing before with
  | nil => simp at parts
  | cons _ _ closed _ ih =>
      cases before with
      | nil =>
          obtain ⟨rfl, rfl⟩ := List.cons.inj parts
          exact closed unclosed
      | cons first before => exact ih (List.cons.inj parts).2

end Covers

/-- The tokens are the source, cut into pieces: there is no gap and no overlap, no piece is empty,
every cut is between two characters, and every text is what stands in its place. -/
structure Tiles (tokens : List Token) (source : String) : Prop where
  first : ∀ token ∈ tokens.head?, token.span.start = 0
  next : tokens.IsChain fun token next => token.span.touches next.span = true
  last : (tokens.getLast?.map fun token => token.span.stop).getD 0 = source.utf8ByteSize
  solid : ∀ token ∈ tokens, token.span.start < token.span.stop
  boundary : ∀ token ∈ tokens, String.Pos.Raw.IsValid source ⟨token.span.start⟩ ∧
    String.Pos.Raw.IsValid source ⟨token.span.stop⟩
  slice : ∀ token ∈ tokens,
    token.text.toByteArray = source.toByteArray.extract token.span.start token.span.stop
  joined : String.join (tokens.map Token.text) = source

theorem Covers.tiles {tokens : List Token} {source : String} (covers : Covers 0 tokens source) :
    Tiles tokens source where
  first := covers.head_start
  next := covers.touch
  last := covers.last_stop.trans (Nat.zero_add _)
  solid := fun _ => covers.start_lt_stop
  joined := covers.join
  boundary := by
    intro token member
    obtain ⟨before, behind, rfl, _, starts, stops⟩ := covers.exists_split member
    rw [Nat.zero_add] at starts
    constructor
    · refine String.Pos.Raw.isValid_iff_exists_append.2 ⟨before, token.text ++ behind, ?_, ?_⟩
      · rw [String.append_assoc]
      · rw [starts, String.rawEndPos]
    · refine String.Pos.Raw.isValid_iff_exists_append.2 ⟨before ++ token.text, behind, rfl, ?_⟩
      rw [stops, starts, String.rawEndPos, String.utf8ByteSize_append]
  slice := by
    intro token member
    obtain ⟨before, behind, rfl, _, starts, stops⟩ := covers.exists_split member
    rw [Nat.zero_add] at starts
    have front := ByteArray.extract_append_size_add (a := before.toByteArray)
      (b := (token.text ++ behind).toByteArray) (i := 0) (j := token.text.toByteArray.size)
    rw [String.toByteArray_append, ByteArray.extract_append_eq_left rfl] at front
    rw [← front, String.append_assoc, String.toByteArray_append, String.toByteArray_append, stops,
      starts, String.size_toByteArray, String.size_toByteArray, Nat.add_zero]

end Token

/-! ### What matters and what does not -/

namespace TokenStream

/-- The token does not begin behind the other one. -/
def startsFirst (token other : Token) : Bool :=
  decide (token.span.start ≤ other.span.start)

/-- The tokens that matter and the others together, in the order of their places. -/
def merged (stream : TokenStream) : List Token :=
  stream.tokens.merge stream.trivia startsFirst

/-- A token that begins before all others comes first in a merge. -/
theorem cons_merge {first : Token} {tokens others : List Token}
    (before : ∀ other ∈ others, first.span.start < other.span.start) :
    (first :: tokens).merge others startsFirst = first :: tokens.merge others startsFirst := by
  cases others with
  | nil => rw [List.merge_right, List.merge_right]
  | cons other others =>
      have starts : startsFirst first other = true :=
        decide_eq_true (Nat.le_of_lt (before other List.mem_cons_self))
      rw [List.cons_merge_cons, if_pos starts]

theorem merge_cons {first : Token} {tokens others : List Token}
    (before : ∀ token ∈ tokens, first.span.start < token.span.start) :
    tokens.merge (first :: others) startsFirst = first :: tokens.merge others startsFirst := by
  cases tokens with
  | nil => rw [List.nil_merge, List.nil_merge]
  | cons token tokens =>
      have starts : ¬ startsFirst token first = true := by
        simpa [startsFirst] using before token List.mem_cons_self
      rw [List.cons_merge_cons, if_neg starts]

/-- Tokens that were told apart are put together again by their places. -/
theorem merge_filter {tokens : List Token} (keep : Token → Bool)
    (ordered : tokens.Pairwise fun token later => token.span.start < later.span.start) :
    (tokens.filter keep).merge (tokens.filter fun token => !keep token) startsFirst = tokens := by
  induction ordered with
  | nil => simp
  | @cons first others before _ ih =>
      cases kept : keep first with
      | true =>
          rw [List.filter_cons_of_pos kept, List.filter_cons_of_neg (by simp [kept]), cons_merge, ih]
          exact fun other member => before other (List.mem_of_mem_filter member)
      | false =>
          rw [List.filter_cons_of_neg (by simp [kept]), List.filter_cons_of_pos (by simp [kept]),
            merge_cons, ih]
          exact fun other member => before other (List.mem_of_mem_filter member)

theorem covers_scanAll (source : String) :
    Token.Covers 0 (Token.scanAll source.toList) source := by
  have covers := Token.covers_scanFrom 0 source.toList
  rwa [String.ofList_toList] at covers

/-- Significant and insignificant tokens, merged, are the tokens that were scanned. -/
theorem merged_ofString (source : String) :
    (ofString source).merged = Token.scanAll source.toList := by
  have covers := covers_scanAll source
  have ordered : (Token.scanAll source.toList).Pairwise fun token later =>
      token.span.start < later.span.start := by
    refine covers.ordered.imp_of_mem fun member _ before => ?_
    exact Nat.lt_of_lt_of_le (covers.start_lt_stop member) before
  have together := merge_filter (fun token => !token.kind.isTrivia) ordered
  simpa [merged, ofString] using together

end TokenStream

/-- Whatever the source is: the tokens that matter and the trivia, put together by their places, are
the source cut into pieces; trivia are exactly white space and comments; both are in source order;
and text whose end is missing is the last token. -/
theorem tokens_tile (source : String) :
    let stream := TokenStream.ofString source
    Token.Tiles stream.merged source ∧
      stream.trivia = stream.merged.filter (fun token =>
        token.kind = .whitespace ∨ token.kind = .comment) ∧
      stream.tokens = stream.merged.filter (fun token =>
        token.kind ≠ .whitespace ∧ token.kind ≠ .comment) ∧
      (stream.tokens.Pairwise fun token later => token.span.stop ≤ later.span.start) ∧
      (stream.trivia.Pairwise fun token later => token.span.stop ≤ later.span.start) ∧
      ∀ before token behind, stream.merged = before ++ token :: behind →
        token.kind.isUnclosed = true → behind = [] := by
  intro stream
  have covers := TokenStream.covers_scanAll source
  have merged : stream.merged = Token.scanAll source.toList := TokenStream.merged_ofString source
  have trivia (token : Token) : token.kind.isTrivia =
      decide (token.kind = .whitespace ∨ token.kind = .comment) := by
    cases token.kind <;> simp [TokenKind.isTrivia]
  rw [merged]
  refine ⟨covers.tiles, ?_, ?_, covers.ordered.filter _, covers.ordered.filter _, ?_⟩
  · exact List.filter_congr fun token _ => trivia token
  · refine List.filter_congr fun token _ => ?_
    simp [trivia]
  · intro before token behind parts unclosed
    exact covers.eq_nil_of_unclosed parts unclosed

/-! ### Complaints

Text that is no token is complained of in words that begin with a capital letter, unlike every
message of the grammar. -/

/-- Every complaint of the scanner begins with a capital letter. -/
theorem Lexeme.isUpper_of_error {c : Char} {cs : List Char} {message : String}
    (isError : (scan c cs).kind = .error message) :
    message.toList.head?.any Char.isUpper = true := by
  have listed : ∀ complaint ∈ ["Unterminated string literal", "Unterminated delimited identifier",
      "Unterminated block comment"], complaint.toList.head?.any Char.isUpper = true := by
    decide +kernel
  rcases error_cases isError with ⟨member, _⟩ | rfl | ⟨rfl, _⟩ | rfl
  · exact listed message member
  · decide +kernel
  · decide +kernel
  · simp [toString]

theorem Token.isUpper_of_error {source : String} {token : Token} {message : String}
    (member : token ∈ (TokenStream.ofString source).tokens)
    (isError : token.kind = .error message) :
    message.toList.head?.any Char.isUpper = true := by
  have scanned : token ∈ scanFrom 0 source.toList := List.mem_of_mem_filter member
  obtain ⟨start, c, cs, rfl⟩ := exists_scan_of_mem scanned
  exact Lexeme.isUpper_of_error isError

end SelectTree
