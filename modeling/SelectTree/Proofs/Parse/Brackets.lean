/-
Module: SelectTree.Proofs.Parse.Brackets
Purpose: the brackets of an accepted source match; one that is reported as unmatched has no partner.
Main exports: TokenKind.Matched, Words.balanced_iff_matched, Cause.eq_unmatchedBracket,
  Cause.eq_negativeOffset, Rule.balanced_of_phrase, brackets_match
-/
import SelectTree.Proofs.Grammar.Balance
import SelectTree.Proofs.Parse.Placed
import SelectTree.Proofs.Token.Tiling

namespace SelectTree

namespace TokenKind

/-- No front closes more brackets than it opens, and all in all as many are closed as are opened. -/
structure Matched (kinds : List TokenKind) : Prop where
  fronts : ∀ front, front <+: kinds → front.count .rightParen ≤ front.count .leftParen
  total : kinds.count .rightParen = kinds.count .leftParen

end TokenKind

namespace Words

open TokenKind (NeverBelow Matched)

theorem balanced_iff_matched {words : Words} : words.Balanced ↔ Matched (words.map Word.kind) := by
  unfold Balanced
  rw [openBehind?_eq_some_iff, NeverBelow]
  simp only [Nat.zero_add]
  exact ⟨fun ⟨fronts, total⟩ => ⟨fronts, total⟩, fun ⟨fronts, total⟩ => ⟨fronts, total⟩⟩

/-- Words that close no open group do not close one behind a stretch in which all brackets match. -/
theorem kind_ne_of_closeGroup? {inside behind : Words} {closing : Word}
    (unclosed : closeGroup? 0 (inside ++ closing :: behind) = none) (balanced : inside.Balanced) :
    closing.kind ≠ .rightParen := by
  intro closes
  rw [closeGroup?_append behind balanced closes] at unclosed
  cases unclosed

end Words

/-! ### Messages -/

/-- The messages of the causes that are not plain are their own. -/
theorem Cause.isPlain_of_message {cause : Cause} {place : Option Word} {limit : Nat} {text : String}
    (special : text = "unmatched bracket" ∨ text = "frame offset must not be negative")
    (same : cause.message place limit = text) : cause.isPlain = false := by
  have letters := congrArg String.toList same
  cases cause with
  | unmatchedBracket | negativeOffset => rfl
  | requires subject part =>
      have member : 'q' ∈ (Cause.message place limit (.requires subject part)).toList := by
        unfold Cause.message
        simp [toString]
      rcases special with rfl | rfl <;> simp [letters] at member
  | expects subject parts =>
      have member : 'x' ∈ (Cause.message place limit (.expects subject parts)).toList := by
        unfold Cause.message
        simp [toString]
      rcases special with rfl | rfl <;> simp [letters] at member
  | expected what =>
      unfold Cause.message at letters
      rcases special with rfl | rfl <;> cases place <;> simp [toString] at letters
  | _ =>
      unfold Cause.message at letters
      rcases special with rfl | rfl <;> simp [toString] at letters

theorem Cause.eq_unmatchedBracket {cause : Cause} {place : Option Word} {limit : Nat}
    (same : cause.message place limit = "unmatched bracket") : cause = .unmatchedBracket := by
  have special := isPlain_of_message (.inl rfl) same
  cases cause with
  | unmatchedBracket => rfl
  | negativeOffset =>
      have differ : "frame offset must not be negative" ≠ "unmatched bracket" := by decide +kernel
      exact absurd same differ
  | _ => cases special

theorem Cause.eq_negativeOffset {cause : Cause} {place : Option Word} {limit : Nat}
    (same : cause.message place limit = "frame offset must not be negative") :
    cause = .negativeOffset := by
  have special := isPlain_of_message (.inr rfl) same
  cases cause with
  | negativeOffset => rfl
  | unmatchedBracket =>
      have differ : "unmatched bracket" ≠ "frame offset must not be negative" := by decide +kernel
      exact absurd same differ
  | _ => cases special

theorem Fault.message_report (stream : TokenStream) (limit : Nat) (fault : Fault) :
    (fault.report stream limit).message = fault.cause.message fault.place limit := by
  unfold Fault.report
  dsimp only
  split <;> rfl

/-! ### Accepted sources -/

/-- What is left for the end of a source is a semicolon, or nothing. -/
theorem Parser.passes_of_ending {scope : Scope} {words rest : Words}
    (ended : Parser.ending scope words = .ok ((), rest)) : words.Passes [] := by
  rw [ending_apply] at ended
  cases words with
  | nil => exact .refl []
  | cons word words =>
      cases isLast : word.kind == .semicolon with
      | false => simp [isLast] at ended
      | true =>
          have plain : Words.isBracket word.kind = false := by
            rw [beq_iff_eq.1 isLast]
            rfl
          cases words with
          | nil => exact .word plain
          | cons next words => simp [isLast] at ended

/-- In words that are a phrase as a whole every bracket is closed. -/
theorem Rule.balanced_of_phrase {rule : Rule} {maxDepth : Nat} {words : Words}
    {phrase : Phrase rule.form} (read : rule.phrase maxDepth {} words = .ok phrase) :
    words.Balanced := by
  rw [Rule.phrase_eq] at read
  obtain ⟨⟨found, rest⟩, read, -⟩ := map_eq_ok_iff.1 read
  obtain ⟨found, middle, readRule, read⟩ := Parser.bind_ok_iff.1 read
  obtain ⟨_, left, ended, -⟩ := Parser.bind_ok_iff.1 read
  have passes : words.Passes middle :=
    (rule.composed_step words).passes (Grammar.rules_pass (words.length + 1)) rfl readRule
  exact Words.Passes.nil_iff.1 (passes.trans (Parser.passes_of_ending ended))

/-- The brackets of every accepted source match.  If a bracket is reported as unmatched, then it is
an opening bracket of the source, and nowhere behind it, in all of the source, is there one that
closes it. -/
theorem brackets_match (entry : EntryPoint) (source : String) (options : Options) :
    (∀ tree, parse entry source options {} = .ok tree →
      TokenKind.Matched ((TokenStream.ofString source).tokens.map Token.kind)) ∧
    ∀ error, parse entry source options {} = .error (.refused error) →
      error.message = "unmatched bracket" →
      ∃ before opening behind,
        (TokenStream.ofString source).tokens = before ++ opening :: behind ∧
        opening.kind = .leftParen ∧ error.PointsAt (TokenStream.ofString source) opening ∧
        ∀ inside closing after, behind = inside ++ closing :: after →
          TokenKind.Matched (inside.map Token.kind) → closing.kind ≠ .rightParen := by
  constructor
  · intro tree parsed
    obtain ⟨phrase, -, read⟩ := exists_accepted_phrase parsed
    have matched := Words.balanced_iff_matched.1 (Rule.balanced_of_phrase read)
    rwa [Words.map_kind_stream] at matched
  · intro error refused message
    rcases lexical_or_fault_of_refused refused with lexical | ⟨fault, found, rfl⟩
    · obtain ⟨token, first, points⟩ := TokenStream.exists_of_lexicalError? lexical
      have capital := Token.isUpper_of_error points.member first.1
      rw [message] at capital
      exact absurd capital (by decide +kernel)
    · rw [Fault.message_report] at message
      obtain ⟨opening, place, opens, behind, suffix, unclosed⟩ :=
        (Rule.phrase_sited found).unclosed (Cause.eq_unmatchedBracket message)
      obtain ⟨before, token, after, split, spelling, rest, points⟩ :=
        Fault.report_pointsAt options.maxDepth place suffix
      have isOpening : token.kind = .leftParen := (congrArg Prod.fst spelling).symm.trans opens
      refine ⟨before, token, after, split, isOpening, points, ?_⟩
      rintro inside closing further rfl matched
      -- The words behind the bracket are cut where the tokens are.
      rw [List.map_append, List.map_cons] at rest
      obtain ⟨front, back, rfl, sameFront, sameBack⟩ := List.map_eq_append_iff.1 rest
      obtain ⟨last, others, rfl, sameLast, -⟩ := List.map_eq_cons_iff.1 sameBack
      rw [← Words.map_kind_eq sameFront] at matched
      have differs := Words.kind_ne_of_closeGroup? unclosed (Words.balanced_iff_matched.2 matched)
      have sameKind : last.kind = closing.kind := congrArg Prod.fst sameLast
      rwa [sameKind] at differs

/-- An `IIF` with two brackets and one that closes: the outer bracket is reported, since the inner
one is closed. -/
theorem brackets_match_iif :
    (∃ tree, parse .column "IIF((a) = 1, 2, 3)" {} {} = .ok tree ∧
      TokenKind.Matched ((TokenStream.ofString "IIF((a) = 1, 2, 3)").tokens.map Token.kind)) ∧
    ∃ error, parse .column "IIF((a = 1, 2, 3)" {} {} = .error (.refused error) ∧
      error.column = some 3 ∧ ∃ before opening behind,
        (TokenStream.ofString "IIF((a = 1, 2, 3)").tokens = before ++ opening :: behind ∧
        opening.kind = .leftParen ∧
        error.PointsAt (TokenStream.ofString "IIF((a = 1, 2, 3)") opening ∧
        ∀ inside closing after, behind = inside ++ closing :: after →
          TokenKind.Matched (inside.map Token.kind) → closing.kind ≠ .rightParen := by
  refine ⟨?accepted, ?refused⟩
  case accepted =>
    have accepted : (parse .column "IIF((a) = 1, 2, 3)" {} {}).isOk = true := by
      decide +kernel
    rcases parsed : parse .column "IIF((a) = 1, 2, 3)" {} {} with failure | tree <;>
      rw [parsed] at accepted
    · cases accepted
    · exact ⟨tree, rfl, (brackets_match .column _ {}).1 tree parsed⟩
  case refused =>
    have refused : parse .column "IIF((a = 1, 2, 3)" {} {} = .error (.refused
        { kind := .syntactic, message := "unmatched bracket", line := some 0, column := some 3,
          tokenText := some "(" }) := by
      decide +kernel
    exact ⟨_, refused, rfl, (brackets_match .column _ {}).2 _ refused rfl⟩

end SelectTree
