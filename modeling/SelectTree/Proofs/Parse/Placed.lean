/-
Module: SelectTree.Proofs.Parse.Placed
Purpose: where the error of a parse points.
Main exports: ParseError.PointsAt, ParseError.PointsNowhere, TokenStream.FirstError,
  Rule.phrase_sited, errors_placed

The grammar knows no byte offsets.  A fault of the grammar is about a word of the source, and it is
reported at the token of that word; text that is no token is reported before there is a grammar.
-/
import SelectTree.Proofs.Grammar.Sited.Query
import SelectTree.Proofs.Parse.Refused
import SelectTree.Proofs.Token.Respelling

namespace SelectTree

/-- The error shows the text of this token and the place where it begins. -/
structure ParseError.PointsAt (error : ParseError) (stream : TokenStream) (token : Token) :
    Prop where
  member : token ∈ stream.tokens
  line : error.line = some (Position.ofOffset stream.trivia token.span.start).line
  column : error.column = some (Position.ofOffset stream.trivia token.span.start).column
  tokenText : error.tokenText = some token.text

/-- The error shows neither a place nor a text. -/
structure ParseError.PointsNowhere (error : ParseError) : Prop where
  line : error.line = none
  column : error.column = none
  tokenText : error.tokenText = none

/-- The token is no token of the language, with this complaint, and none before it is. -/
def TokenStream.FirstError (stream : TokenStream) (token : Token) (message : String) : Prop :=
  token.kind = .error message ∧ ∃ before behind, stream.tokens = before ++ token :: behind ∧
    ∀ other ∈ before, ∀ complaint, other.kind ≠ .error complaint

/-! ### Text that is no token -/

theorem TokenKind.complaint?_eq_some_iff {kind : TokenKind} {message : String} :
    kind.complaint? = some message ↔ kind = .error message := by
  cases kind <;> simp [complaint?]

namespace TokenStream

variable {stream : TokenStream}

theorem lexicalError?_of_firstError? {token : Token} {message : String}
    (isFirst : stream.firstError? = some token) (isError : token.kind = .error message) :
    stream.lexicalError? =
      some (.atOffset stream.trivia .lexical message token.span.start token.text) := by
  rw [lexicalError?, isFirst, Option.bind_eq_bind, Option.bind_some, isError]
  rfl

theorem lexicalError?_of_mem {token : Token} {message : String} (member : token ∈ stream.tokens)
    (isError : token.kind = .error message) : ∃ error, stream.lexicalError? = some error := by
  have complains : token.kind.complaint?.isSome := by
    rw [TokenKind.complaint?_eq_some_iff.2 isError]
    rfl
  have found : stream.firstError?.isSome := List.find?_isSome.2 ⟨token, member, complains⟩
  obtain ⟨first, isFirst⟩ := Option.isSome_iff_exists.1 found
  have firstComplains : first.kind.complaint?.isSome := by
    rw [firstError?] at isFirst
    simpa using List.find?_some isFirst
  obtain ⟨complaint, isComplaint⟩ := Option.isSome_iff_exists.1 firstComplains
  exact ⟨_, lexicalError?_of_firstError? isFirst (TokenKind.complaint?_eq_some_iff.1 isComplaint)⟩

theorem FirstError.firstError? {token : Token} {message : String}
    (first : stream.FirstError token message) : stream.firstError? = some token := by
  obtain ⟨isError, before, behind, split, others⟩ := first
  refine List.find?_eq_some_iff_append.2 ⟨?_, before, behind, split, ?_⟩
  · rw [TokenKind.complaint?_eq_some_iff.2 isError]
    rfl
  · intro other member
    rcases complained : other.kind.complaint? with _ | complaint
    · rfl
    · exact absurd (TokenKind.complaint?_eq_some_iff.1 complained) (others other member complaint)

/-- The lexical error of a source is reported at the first text that is no token. -/
theorem exists_of_lexicalError? {error : ParseError}
    (found : stream.lexicalError? = some error) :
    ∃ token, stream.FirstError token error.message ∧ error.PointsAt stream token := by
  obtain ⟨token, isFirst, complained⟩ := Option.bind_eq_some_iff.1 found
  obtain ⟨message, isComplaint, shown⟩ := Option.bind_eq_some_iff.1 complained
  cases shown
  obtain ⟨-, before, behind, split, others⟩ := List.find?_eq_some_iff_append.1 isFirst
  refine ⟨token, ⟨TokenKind.complaint?_eq_some_iff.1 isComplaint, before, behind, split, ?_⟩, ?_⟩
  · intro other member complaint isError
    have noComplaint := others other member
    rw [isError] at noComplaint
    cases noComplaint
  · exact ⟨List.mem_of_find?_eq_some isFirst, rfl, rfl, rfl⟩

end TokenStream

/-! ### Faults of the grammar -/

theorem Parser.Sited.ending {source : Words} : Parser.Sited source Parser.ending := by
  apply bind (eat .semicolon)
  intro _
  apply ahead (pure ())
  intro word member
  refine fail (.of_isPlain ?_ rfl)
  rintro _ ⟨⟩
  exact member

/-- A rule to the end of the words complains only about one of these words, only about a bracket
that they leave open, and only about a count of rows that is negative. -/
theorem Rule.phrase_sited {rule : Rule} {maxDepth : Nat} {words : Words} {fault : Fault}
    (refused : rule.phrase maxDepth {} words = .error fault) : fault.Sited words := by
  have whole : Parser.Sited words (do
      let phrase ← rule.parser
      Parser.ending
      return phrase : Parser (Phrase rule.form)) := by
    apply Parser.Sited.bind (rule.complaints_sited words)
    intro phrase
    exact .bind .ending fun _ => .pure phrase
  rw [Rule.phrase_eq] at refused
  rcases read : (do
      let phrase ← rule.parser
      Parser.ending
      return phrase : Parser (Phrase rule.form)) { room := maxDepth } words
    with found | ⟨phrase, rest⟩ <;> rw [read] at refused <;> cases refused
  exact whole.of_error rfl (.refl words) read

theorem Rule.kind_of_phrase {rule : Rule} {maxDepth : Nat} {words : Words} {fault : Fault}
    (refused : rule.phrase maxDepth {} words = .error fault) : fault.kind ≠ .lexical := by
  rcases Rule.phrase_error refused with inside | ⟨incomplete, -⟩
  · intro lexical
    have plain := Rule.plain_of_parser inside
    rw [Fault.Plain, lexical] at plain
    exact plain
  · simp [incomplete]

namespace Fault

variable {stream : TokenStream} {fault : Fault}

theorem report_pointsNowhere (limit : Nat) (nowhere : fault.place = none) :
    (fault.report stream limit).PointsNowhere := by
  rw [report, nowhere]
  exact ⟨rfl, rfl, rfl⟩

/-- A fault about a word is reported at the token of this word. -/
theorem report_pointsAt {word : Word} {behind : Words} (limit : Nat)
    (place : fault.place = some word) (suffix : word :: behind <:+ stream.words) :
    ∃ before token after, stream.tokens = before ++ token :: after ∧
      word.spelling = token.spelling ∧ behind.map Word.spelling = after.map Token.spelling ∧
      (fault.report stream limit).PointsAt stream token := by
  obtain ⟨before, token, after, split, index, spelling, rest⟩ := Words.exists_of_suffix suffix
  have found : stream.tokens[word.index]? = some token := by
    rw [index, Nat.zero_add, split, List.getElem?_append_right le_rfl, Nat.sub_self]
    rfl
  refine ⟨before, token, after, split, spelling, ?_, ?_⟩
  · rw [rest, Words.map_spelling]
  · rw [report, place, Option.bind_some, found]
    exact ⟨List.mem_of_getElem? found, rfl, rfl, rfl⟩

/-- What is reported shows the text of the word that the fault is about, if there is one. -/
theorem Sited.report (sited : fault.Sited stream.words) (limit : Nat) :
    ((fault.report stream limit).PointsNowhere ∨
      ∃ token, (fault.report stream limit).PointsAt stream token) ∧
    (fault.report stream limit).tokenText = fault.place.map Word.text := by
  rcases place : fault.place with _ | word
  · have nowhere : (fault.report stream limit).PointsNowhere := report_pointsNowhere limit place
    exact ⟨.inl nowhere, nowhere.tokenText⟩
  · obtain ⟨before, behind, split⟩ := List.append_of_mem (sited.place word place)
    have suffix : word :: behind <:+ stream.words := ⟨before, split.symm⟩
    obtain ⟨-, token, -, -, spelling, -, points⟩ := report_pointsAt limit place suffix
    refine ⟨.inr ⟨token, points⟩, ?_⟩
    have sameText : word.text = token.text := congrArg Prod.snd spelling
    rw [points.tokenText, Option.map_some, sameText]

end Fault

/-! ### Errors -/

/-- An error shows a token of the source and where it begins, or it shows nothing.  It is lexical if
and only if there is text that is no token; then it shows the first such text with its complaint.
Any other error reports the fault that the grammar finds, with the text of the word that the fault
is about. -/
theorem errors_placed (entry : EntryPoint) (source : String) (options : Options) :
    (∀ token message, (TokenStream.ofString source).FirstError token message →
      ∃ error, parse entry source options {} = .error (.refused error) ∧
        error.kind = .lexical ∧ error.message = message ∧
        error.PointsAt (TokenStream.ofString source) token) ∧
    ∀ error, parse entry source options {} = .error (.refused error) →
      (error.PointsNowhere ∨ ∃ token, error.PointsAt (TokenStream.ofString source) token) ∧
      (error.kind = .lexical ↔
        ∃ token ∈ (TokenStream.ofString source).tokens, ∃ message, token.kind = .error message) ∧
      (error.kind = .lexical → ∃ token,
        (TokenStream.ofString source).FirstError token error.message ∧
          error.PointsAt (TokenStream.ofString source) token) ∧
      (error.kind ≠ .lexical → ∃ fault,
        entry.rule.phrase options.maxDepth {} (TokenStream.ofString source).words = .error fault ∧
          error = fault.report (TokenStream.ofString source) options.maxDepth ∧
          error.tokenText = fault.place.map Word.text) := by
  constructor
  · intro token message first
    have found := TokenStream.lexicalError?_of_firstError? first.firstError? first.1
    have member : token ∈ (TokenStream.ofString source).tokens :=
      List.mem_of_find?_eq_some first.firstError?
    exact ⟨_, parse_of_lexicalError? found entry options {}, rfl, rfl, member, rfl, rfl, rfl⟩
  · intro error refused
    rcases lexical_or_fault_of_refused refused with lexical | ⟨fault, found, rfl⟩
    · obtain ⟨token, first, points⟩ := TokenStream.exists_of_lexicalError? lexical
      have kind := TokenStream.kind_of_lexicalError? lexical
      refine ⟨.inr ⟨token, points⟩, ?_, fun _ => ⟨token, first, points⟩, fun other => ?_⟩
      · exact ⟨fun _ => ⟨token, points.member, error.message, first.1⟩, fun _ => kind⟩
      · exact absurd kind other
    · -- The grammar is asked only if all of the source is tokens.
      have kind : (fault.report (TokenStream.ofString source) options.maxDepth).kind ≠
          .lexical := by
        rw [Fault.kind_report]
        exact Rule.kind_of_phrase found
      obtain ⟨placed, tokenText⟩ := (Rule.phrase_sited found).report options.maxDepth
      refine ⟨placed, ⟨fun lexical => absurd lexical kind, ?_⟩, fun lexical => absurd lexical kind,
        fun _ => ⟨fault, found, rfl, tokenText⟩⟩
      rintro ⟨token, member, message, isError⟩
      obtain ⟨error, lexical⟩ := TokenStream.lexicalError?_of_mem member isError
      rw [parse_of_lexicalError? lexical] at refused
      cases refused
      exact TokenStream.kind_of_lexicalError? lexical

/-- The tokens of a source with two texts that are no tokens. -/
theorem tokens_loneSign : (TokenStream.ofString "a + @ '").tokens =
    [{ kind := .identifier "a", text := "a", span := ⟨0, 1⟩ },
      { kind := .plus, text := "+", span := ⟨2, 3⟩ }] ++
    { kind := .error "Expected variable name after @", text := "@", span := ⟨4, 5⟩ } ::
    [{ kind := .error "Unterminated string literal", text := "'", span := ⟨6, 7⟩ }] := by
  decide +kernel

/-- Of two texts that are no tokens the first is reported; a missing operand is reported at the word
that stands in its place, on its line. -/
theorem errors_placed_missingOperand :
    (∃ error, parse .column "a + @ '" {} {} = .error (.refused error) ∧ error.kind = .lexical ∧
      error.message = "Expected variable name after @" ∧
      error.PointsAt (TokenStream.ofString "a + @ '")
        { kind := .error "Expected variable name after @", text := "@", span := ⟨4, 5⟩ }) ∧
    ∃ error, parse .column "a\n+ FROM" {} {} = .error (.refused error) ∧
      error.line = some 1 ∧ error.column = some 2 ∧
      (∃ token, error.PointsAt (TokenStream.ofString "a\n+ FROM") token) ∧
      ∃ fault, EntryPoint.column.rule.phrase 128 {} (TokenStream.ofString "a\n+ FROM").words =
          .error fault ∧
        fault.place.map Word.text = some "FROM" := by
  refine ⟨?lexical, ?syntactic⟩
  case lexical =>
    refine (errors_placed .column "a + @ '" {}).1 _ _ ⟨rfl, _, _, tokens_loneSign, ?_⟩
    intro other member complaint isError
    simp only [List.mem_cons, List.not_mem_nil, or_false] at member
    rcases member with rfl | rfl <;> cases isError
  case syntactic =>
    have refused : parse .column "a\n+ FROM" {} {} = .error (.refused
        { kind := .syntactic, message := "expected a column, found 'FROM'", line := some 1,
          column := some 2, tokenText := some "FROM" }) := by
      decide +kernel
    obtain ⟨placed, -, -, other⟩ := (errors_placed .column "a\n+ FROM" {}).2 _ refused
    obtain ⟨fault, found, -, tokenText⟩ := other nofun
    refine ⟨_, refused, rfl, rfl, ?_, fault, found, tokenText.symm⟩
    rcases placed with nowhere | points
    · cases nowhere.line
    · exact points

end SelectTree
