/-
Module: SelectTree.Proofs.Parse.Limit
Purpose: the limit on nesting only ever turns a result into a report of the limit.
Main exports: Rule.phrase_approximates, Fault.report_eq, parse_eq_of_le
-/
import SelectTree.Proofs.Grammar.Deepen
import SelectTree.Proofs.Parse.Refused

namespace SelectTree

open SelectTree.Parser (Approximates)

/-! ### More room -/

/-- What a rule makes of some words, it makes of them with more room, unless it reports the
limit. -/
theorem Rule.parser_approximates (rule : Rule) (room extra : Nat) (words : Words) :
    Approximates (rule.parser { room } words) (rule.parser { room := room + extra } words) :=
  (rule.composed_step words).approximates (Grammar.rules_approximate le_rfl) extra { room }

/-- So does a rule to the end of the words. -/
theorem Rule.phrase_approximates (rule : Rule) {less more : Nat} (le : less ≤ more)
    (words : Words) : Approximates (rule.phrase less {} words) (rule.phrase more {} words) := by
  obtain ⟨extra, rfl⟩ := Nat.exists_eq_add_of_le le
  have whole : Approximates
      ((do
        let phrase ← rule.parser
        Parser.ending
        return phrase : Parser (Phrase rule.form)) { room := less } words)
      ((do
        let phrase ← rule.parser
        Parser.ending
        return phrase : Parser (Phrase rule.form)) { room := less + extra } words) := by
    refine (rule.parser_approximates less extra words).bind fun phrase rest _ => ?_
    have ending : Approximates (Parser.ending { room := less } rest)
        (Parser.ending { room := less + extra } rest) := by
      rw [Parser.ending_apply, Parser.ending_apply]
      exact .refl _
    exact ending.bind fun _ _ _ => .inl rfl
  rw [Rule.phrase_eq, Rule.phrase_eq]
  rcases whole with same | ⟨fault, refused, isLimit⟩
  · rw [same]
    exact .refl _
  · rw [refused]
    exact .limit isLimit

/-! ### Reports -/

/-- The wording of a cause mentions the limit only if the cause is the limit. -/
theorem Cause.message_eq {cause : Cause} (noLimit : cause.isLimit = false) (place : Option Word)
    (limit other : Nat) : cause.message place limit = cause.message place other := by
  cases cause with
  | bracketDepth | expressionDepth => cases noLimit
  | _ => rfl

theorem Fault.report_eq {fault : Fault} (noLimit : fault.cause.isLimit = false)
    (stream : TokenStream) (limit other : Nat) :
    fault.report stream limit = fault.report stream other := by
  rw [Fault.report, Fault.report, Cause.message_eq noLimit _ limit other]

/-- A fault of another kind has nothing to do with the limit. -/
theorem Rule.noLimit_of_phrase {rule : Rule} {maxDepth : Nat} {words : Words} {fault : Fault}
    (refused : rule.phrase maxDepth {} words = .error fault) (kind : fault.kind ≠ .depthLimit) :
    fault.cause.isLimit = false := by
  rcases Rule.phrase_error refused with inside | ⟨-, leftover⟩
  · exact (Rule.plain_of_parser inside).isLimit_eq kind
  · rw [leftover]
    rfl

/-! ### Parses -/

/-- A token stream is refused, or not, before the grammar gets it, whatever the limit is. -/
theorem TokenStream.screen_withLimit (stream : TokenStream) (options : Options) (limit : Nat) :
    stream.screen { options with maxDepth := limit } = stream.screen options := rfl

theorem TokenStream.phrase_eq_of_le (stream : TokenStream) (rule : Rule) (options : Options)
    {less more : Nat} (le : less ≤ more)
    (withinLimit : ∀ error,
      stream.phrase rule { options with maxDepth := less } {} = .error (.refused error) →
      error.kind ≠ .depthLimit) :
    stream.phrase rule { options with maxDepth := more } {} =
      stream.phrase rule { options with maxDepth := less } {} := by
  unfold TokenStream.phrase at withinLimit ⊢
  simp only [screen_withLimit] at withinLimit ⊢
  rcases screened : stream.screen options with failure | _ <;> rw [screened] at withinLimit
  · rfl
  change ∀ error, (rule.phrase less {} stream.words).mapError _ = _ → _ at withinLimit
  change (rule.phrase more {} stream.words).mapError _ =
    (rule.phrase less {} stream.words).mapError _
  rcases rule.phrase_approximates le stream.words with same | ⟨fault, refused, isLimit⟩
  · -- With the same answer of the rule only the report may differ, and it does not.
    rw [← same]
    rcases found : rule.phrase less {} stream.words with fault | phrase
    · rw [found] at withinLimit
      have kind := withinLimit _ rfl
      rw [Fault.kind_report] at kind
      have report := Fault.report_eq (Rule.noLimit_of_phrase found kind) stream more less
      exact congrArg (Except.error ∘ Failure.refused) report
    · rfl
  · rw [refused] at withinLimit
    have kind := withinLimit _ rfl
    rw [Fault.kind_report] at kind
    exact absurd isLimit kind

/-- The limit on nesting only ever turns a result into a report of the limit: without such a report,
a higher limit gives the same tree, or the same error. -/
theorem parse_eq_of_le (entry : EntryPoint) (source : String) (options : Options)
    {less more : Nat} (le : less ≤ more)
    (withinLimit : ∀ error,
      parse entry source { options with maxDepth := less } {} = .error (.refused error) →
      error.kind ≠ .depthLimit) :
    parse entry source { options with maxDepth := more } {} =
      parse entry source { options with maxDepth := less } {} := by
  rw [parse_eq, parse_eq]
  refine congrArg _ (TokenStream.phrase_eq_of_le _ _ _ le fun error refused => ?_)
  refine withinLimit error ?_
  rw [parse_eq, refused]
  rfl

/-- Two levels of brackets are as good as many, and for an error one level is. -/
theorem parse_eq_of_le_nestedBrackets :
    (parse .statement "SELECT 1 WHERE ((a)) = 1" { maxDepth := 2 } {}).isOk = true ∧
    parse .statement "SELECT 1 WHERE ((a)) = 1" {} {} =
      parse .statement "SELECT 1 WHERE ((a)) = 1" { maxDepth := 2 } {} ∧
    parse .condition "(a) b" { maxDepth := 128 } {} = .error (.refused
      { kind := .notACondition, message := "expected a comparison, found 'b'", line := some 0,
        column := some 4, tokenText := some "b" }) := by
  have accepted :
      (parse .statement "SELECT 1 WHERE ((a)) = 1" { maxDepth := 2 } {}).isOk = true := by
    decide +kernel
  have refused : parse .condition "(a) b" { maxDepth := 1 } {} = .error (.refused
      { kind := .notACondition, message := "expected a comparison, found 'b'", line := some 0,
        column := some 4, tokenText := some "b" }) := by
    decide +kernel
  refine ⟨accepted, ?tree, ?error⟩
  case tree =>
    refine parse_eq_of_le .statement _ {} (show 2 ≤ 128 by decide) fun error limited => ?_
    rw [limited] at accepted
    cases accepted
  case error =>
    rw [← refused]
    refine parse_eq_of_le .condition _ {} (show 1 ≤ 128 by decide) fun error limited => ?_
    rw [refused] at limited
    cases limited
    nofun

end SelectTree
