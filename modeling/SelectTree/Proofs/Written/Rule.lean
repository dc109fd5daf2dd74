/-
Module: SelectTree.Proofs.Written.Rule
Purpose: a source that is accepted is written as the phrase that its tree shows.
Main exports: Grammar.rules_faithful, Rule.reads, exists_written_of_parse
-/
import SelectTree.Proofs.Build.Rule
import SelectTree.Proofs.Written.Query

namespace SelectTree

open SelectTree.Parser

namespace Grammar

theorem reads_exhausted {form : Form} :
    Reads (exhausted : Parser (Phrase form)) Phrase.written :=
  fun _ => .ahead (.fail _)

theorem Rules.Faithful.around {rules : Rules} (faithful : rules.Faithful) :
    rules.around.Faithful where
  operand := reads_operand faithful
  column := reads_column faithful
  term := reads_term faithful
  condition := reads_condition faithful
  relation := reads_relation faithful
  statement := reads_statement faithful

/-- The rules are faithful however deep they go. -/
theorem rules_faithful (depth : Nat) : (rules depth).Faithful := by
  induction depth with
  | zero =>
      exact ⟨reads_exhausted, reads_exhausted, reads_exhausted, reads_exhausted, reads_exhausted,
        reads_exhausted⟩
  | succ depth ih => exact ih.around

end Grammar

namespace Rule

open Grammar

theorem reads_step (rule : Rule) {rules : Rules} (faithful : rules.Faithful) :
    Reads (rule.step rules) Phrase.written := by
  cases rule with
  | selectColumn => exact reads_selectColumn (reads_column faithful)
  | column => exact reads_column faithful
  | operand => exact reads_operand faithful
  | bracketOperand => exact reads_bracketOperand faithful
  | condition => exact reads_condition faithful
  | relation => exact reads_relation faithful
  | statement => exact reads_statement faithful
  | select => exact fun words => (takes_block faithful .start words).committed
  | top => exact reads_top faithful
  | pivot => exact reads_pivot faithful
  | groupBy => exact reads_groupBy faithful
  | orderBy => exact reads_orderBy faithful
  | orderItem => exact reads_orderItem faithful
  | window => exact reads_window faithful
  | optionHints => exact reads_optionHints

/-- What a rule takes is written as its phrase says. -/
theorem reads (rule : Rule) : Reads rule.parser Phrase.written :=
  fun words => .look (rule.reads_step (rules_faithful _) words)

/-- Nothing but one semicolon is behind a phrase. -/
theorem exhausts_ending (words : Words) :
    Exhausts Parser.ending words fun _ => Written.maybe (Written.kind .semicolon) := by
  intro scope value rest noHooks read
  obtain ⟨found, left, readEat, readEnd⟩ := bind_ok_iff.1 read
  cases left with
  | cons word left => cases readEnd
  | nil =>
      cases readEnd
      obtain ⟨used, rfl, member⟩ := reads_eat .semicolon words scope found [] noHooks readEat
      have taken := member [] Language.nil_mem_one
      refine ⟨rfl, Written.mem_of_le (Written.flagged_le_maybe _ found) ?_⟩
      rwa [List.append_nil]

/-- All words of a phrase are written as the phrase says; a semicolon may follow. -/
theorem written_of_phrase {rule : Rule} {maxDepth : Nat} {words : Words}
    {phrase : Phrase rule.form} (read : rule.phrase maxDepth {} words = .ok phrase) :
    words ∈ phrase.written * Written.maybe (Written.kind .semicolon) := by
  have whole : Spans 1 (do
      let phrase ← rule.parser
      Parser.ending
      return phrase) words fun phrase : Phrase rule.form =>
        phrase.written * Written.maybe (Written.kind .semicolon) := by
    apply Spans.begin (rule.reads words)
    intro phrase rest
    exact (exhausts_ending rest).bind fun _ => .ended le_rfl
  rw [phrase_eq] at read
  obtain ⟨⟨found, rest⟩, ran, rfl⟩ := map_eq_ok_iff.1 read
  exact whole _ found rest rfl ran [] Language.nil_mem_one

end Rule

/-- Every accepted source is a way to write the phrase that its tree shows. -/
theorem exists_written_of_parse {entry : EntryPoint} {source : String} {options : Options}
    {tree : Tree} (parsed : parse entry source options {} = .ok tree) :
    ∃ phrase : Phrase entry.rule.form, tree = phrase.tree ∧
      (TokenStream.ofString source).words ∈
        phrase.written * Written.maybe (Written.kind .semicolon) := by
  obtain ⟨phrase, rfl, read⟩ := exists_accepted_phrase parsed
  exact ⟨phrase, rfl, Rule.written_of_phrase read⟩

end SelectTree
