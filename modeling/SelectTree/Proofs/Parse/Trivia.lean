/-
Module: SelectTree.Proofs.Parse.Trivia
Purpose: of white space and comments a parse depends only on where they are missing.
Main exports: TokenStream.Alike, ParseError.Alike, Failure.Alike, TokenStream.Alike.words_eq,
  outcomes_alike
-/
import SelectTree.Parse
import SelectTree.Proofs.Token.Respelling

namespace SelectTree

theorem Token.spelling_eq_iff {token other : Token} :
    token.spelling = other.spelling ↔ token.kind = other.kind ∧ token.text = other.text :=
  Prod.ext_iff

/-- For each token but the last, whether the next one touches it. -/
def Token.joints : List Token → List Bool
  | [] => []
  | [_] => []
  | token :: next :: tokens => token.span.touches next.span :: joints (next :: tokens)

/-- The tokens that matter are spelled alike and touch each other at the same places. -/
structure TokenStream.Alike (stream other : TokenStream) : Prop where
  spelling : stream.tokens.map Token.spelling = other.tokens.map Token.spelling
  joints : Token.joints stream.tokens = Token.joints other.tokens

/-- The errors are the same but for the place that they name, and both name one or neither does. -/
structure ParseError.Alike (error other : ParseError) : Prop where
  kind : error.kind = other.kind
  message : error.message = other.message
  tokenText : error.tokenText = other.tokenText
  isPositioned : error.isPositioned = other.isPositioned

/-- The failures are the same but for the places that they name. -/
inductive Failure.Alike : Failure → Failure → Prop where
  | denied (keywords : List Keyword) : Alike (.denied keywords) (.denied keywords)
  | refused {error other : ParseError} : error.Alike other → Alike (.refused error) (.refused other)

/-- The same result, or failures that are alike. -/
inductive Failure.OutcomesAlike {α : Type} : Except Failure α → Except Failure α → Prop where
  | same (value : α) : OutcomesAlike (.ok value) (.ok value)
  | failed {failure other : Failure} : failure.Alike other →
      OutcomesAlike (.error failure) (.error other)

namespace Failure.OutcomesAlike

variable {α β : Type}

theorem bind {first second : Except Failure α} {next next' : α → Except Failure β}
    (alike : OutcomesAlike first second)
    (behind : ∀ value, OutcomesAlike (next value) (next' value)) :
    OutcomesAlike (first >>= next) (second >>= next') := by
  cases alike with
  | same value => exact behind value
  | failed failures => exact .failed failures

end Failure.OutcomesAlike

/-! ### Words -/

/-- Tokens that are spelled alike and touch alike are the same words, however the first of them is
joined to what is in front. -/
theorem Words.ofTokensBehind_eq {tokens others : List Token} {stop otherStop : Option Nat}
    (spelling : tokens.map Token.spelling = others.map Token.spelling)
    (joints : Token.joints tokens = Token.joints others)
    (joined : tokens.head?.map (fun token => stop == some token.span.start) =
      others.head?.map fun token => otherStop == some token.span.start) (index : Nat) :
    ofTokensBehind stop index tokens = ofTokensBehind otherStop index others := by
  induction tokens generalizing others stop otherStop index with
  | nil =>
      obtain rfl := List.map_eq_nil_iff.1 spelling.symm
      rfl
  | cons token tokens ih =>
      cases others with
      | nil => cases spelling
      | cons other others =>
          rw [List.map_cons, List.map_cons, List.cons.injEq] at spelling
          obtain ⟨first, spelling⟩ := spelling
          have glued : (stop == some token.span.start) = (otherStop == some other.span.start) :=
            Option.some.inj joined
          have tail : ofTokensBehind (some token.span.stop) (index + 1) tokens =
              ofTokensBehind (some other.span.stop) (index + 1) others := by
            cases tokens with
            | nil =>
                obtain rfl := List.map_eq_nil_iff.1 spelling.symm
                rfl
            | cons next tokens =>
                cases others with
                | nil => cases spelling
                | cons otherNext others =>
                    rw [Token.joints, Token.joints, List.cons.injEq] at joints
                    exact ih spelling joints.2 (congrArg some joints.1) (index + 1)
          obtain ⟨kind, text⟩ := Token.spelling_eq_iff.1 first
          rw [ofTokensBehind, ofTokensBehind, tail, glued, kind, text]

namespace TokenStream.Alike

variable {stream other : TokenStream}

/-- The grammar sees the same words. -/
theorem words_eq (alike : stream.Alike other) : stream.words = other.words := by
  apply Words.ofTokensBehind_eq alike.spelling alike.joints
  have heads := congrArg List.head? alike.spelling
  rw [List.head?_map, List.head?_map] at heads
  cases first : stream.tokens.head? <;> cases second : other.tokens.head? <;>
    simp [first, second] at heads ⊢

/-- The policy sees the same kinds. -/
theorem kinds_eq (alike : stream.Alike other) :
    stream.tokens.map Token.kind = other.tokens.map Token.kind := by
  have kinds := congrArg (List.map Prod.fst) alike.spelling
  rwa [List.map_map, List.map_map] at kinds

/-- Errors that point at tokens of one spelling are alike. -/
theorem atOffset_alike {token twin : Token} (spelled : token.spelling = twin.spelling)
    (kind : ErrorKind) (message : String) :
    (ParseError.atOffset stream.trivia kind message token.span.start token.text).Alike
      (.atOffset other.trivia kind message twin.span.start twin.text) where
  kind := rfl
  message := rfl
  tokenText := congrArg some (Token.spelling_eq_iff.1 spelled).2
  isPositioned := rfl

/-- A fault is reported alike: the word it is about is the same token, or no token. -/
theorem report_alike (alike : stream.Alike other) (limit : Nat) (fault : Fault) :
    (fault.report stream limit).Alike (fault.report other limit) := by
  have same (index : Nat) :
      stream.tokens[index]?.map Token.spelling = other.tokens[index]?.map Token.spelling := by
    rw [← List.getElem?_map, ← List.getElem?_map, alike.spelling]
  have found : (fault.place.bind fun word => stream.tokens[word.index]?).map Token.spelling =
      (fault.place.bind fun word => other.tokens[word.index]?).map Token.spelling := by
    cases fault.place with
    | none => rfl
    | some word => exact same word.index
  unfold Fault.report
  cases first : fault.place.bind fun word => stream.tokens[word.index]? with
  | none =>
      rw [first] at found
      rw [Option.map_eq_none_iff.1 found.symm]
      exact ⟨rfl, rfl, rfl, rfl⟩
  | some token =>
      rw [first] at found
      obtain ⟨twin, second, spelled⟩ := Option.map_eq_some_iff.1 found.symm
      rw [second]
      exact atOffset_alike spelled.symm ..

/-- The first text that is no token is spelled alike. -/
theorem firstError?_spelling (alike : stream.Alike other) :
    stream.firstError?.map Token.spelling = other.firstError?.map Token.spelling := by
  have found (tokens : List Token) :
      (tokens.find? fun token => token.kind.complaint?.isSome).map Token.spelling =
        (tokens.map Token.spelling).find? fun spelling => spelling.1.complaint?.isSome := by
    rw [List.find?_map]
    rfl
  rw [firstError?, firstError?, found, found, alike.spelling]

/-- Either no text is an error, or both first errors are alike. -/
theorem lexicalError?_alike (alike : stream.Alike other) :
    Option.Rel ParseError.Alike stream.lexicalError? other.lexicalError? := by
  have errors := alike.firstError?_spelling
  unfold lexicalError?
  cases first : stream.firstError? with
  | none =>
      rw [first] at errors
      rw [Option.map_eq_none_iff.1 errors.symm]
      exact .none
  | some token =>
      rw [first] at errors
      obtain ⟨twin, second, spelled⟩ := Option.map_eq_some_iff.1 errors.symm
      rw [second, Option.bind_eq_bind, Option.bind_eq_bind, Option.bind_some, Option.bind_some,
        (Token.spelling_eq_iff.1 spelled).1]
      cases token.kind.complaint? with
      | none => exact .none
      | some message => exact .some (atOffset_alike spelled.symm ..)

/-- Both are refused before the grammar gets them, for reasons that are alike, or neither is. -/
theorem screen_alike (alike : stream.Alike other) (options : Options) :
    Failure.OutcomesAlike (stream.screen options) (other.screen options) := by
  unfold screen
  have errors := alike.lexicalError?_alike
  generalize stream.lexicalError? = error, other.lexicalError? = otherError at errors
  rw [alike.kinds_eq]
  cases errors with
  | some errors => exact .failed (.refused errors)
  | none =>
      cases options.enforcePolicy with
      | false => exact .same ()
      | true =>
          cases Policy.check (other.tokens.map Token.kind) with
          | ok => exact .same ()
          | error keywords => exact .failed (.denied keywords)

/-- Every rule builds the same tree, or fails alike. -/
theorem tree_alike (alike : stream.Alike other) (rule : Rule) (options : Options)
    (hooks : Hooks) :
    Failure.OutcomesAlike (stream.tree rule options hooks) (other.tree rule options hooks) := by
  unfold tree
  rw [alike.words_eq]
  apply (alike.screen_alike options).bind
  intro _
  cases rule.tree options.maxDepth hooks other.words with
  | ok tree => exact .same tree
  | error fault => exact .failed (.refused (alike.report_alike ..))

end TokenStream.Alike

/-- What a parse gives depends on white space and comments only through which tokens touch: two
sources with the same tokens, which touch at the same places, give the same tree or fail alike. -/
theorem outcomes_alike (entry : EntryPoint) (options : Options) {first second : String}
    (alike : (TokenStream.ofString first).Alike (TokenStream.ofString second)) :
    Failure.OutcomesAlike (parse entry first options {}) (parse entry second options {}) :=
  alike.tree_alike entry.rule options {}

/-- A comment may stand for a space, also in front of a type that is kept as written. -/
theorem outcomes_alike_commentedCast :
    (TokenStream.ofString "CAST(a AS varchar (5))").Alike
        (TokenStream.ofString "CAST(a/**/AS\nvarchar --\n(5))") ∧
      Failure.OutcomesAlike (parse .column "CAST(a AS varchar (5))" {} {})
        (parse .column "CAST(a/**/AS\nvarchar --\n(5))" {} {}) := by
  have alike : (TokenStream.ofString "CAST(a AS varchar (5))").Alike
      (TokenStream.ofString "CAST(a/**/AS\nvarchar --\n(5))") :=
    ⟨by decide +kernel, by decide +kernel⟩
  exact ⟨alike, outcomes_alike .column {} alike⟩

end SelectTree
