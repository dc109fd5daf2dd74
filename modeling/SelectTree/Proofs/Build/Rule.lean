/-
Module: SelectTree.Proofs.Build.Rule
Purpose: a tree that is grown while words are read is the tree of the phrase that the words are.
Main exports: Build.rules_follow, Rule.builds_step, Rule.builds, Rule.tree_eq, parse_eq
-/
import SelectTree.Parse
import SelectTree.Proofs.Build.Statement

namespace SelectTree

namespace Build

theorem builds_exhausted {form : Form} :
    Builds (Builder.read (Grammar.exhausted : Parser NodeId))
      (Grammar.exhausted : Parser (Phrase form)) Phrase.layout :=
  .phrase fun _ => .refuse
    (fun _ words =>
      { kind := .depthLimit, cause := .expressionDepth, place := words.head? })
    (fun _ _ => rfl) fun _ _ => rfl

theorem follow_exhausted : Rules.exhausted.Follow Grammar.Rules.exhausted where
  operand := builds_exhausted
  column := builds_exhausted
  term := builds_exhausted
  condition := builds_exhausted
  relation := builds_exhausted
  statement := builds_exhausted

theorem follow_around {rules : Rules} {grammar : Grammar.Rules} (follow : rules.Follow grammar) :
    rules.around.Follow grammar.around where
  operand := builds_operand follow
  column := builds_column follow
  term := builds_term follow
  condition := builds_condition follow
  relation := builds_relation follow
  statement := builds_statement follow

/-- Level by level, the rules do what the grammar says. -/
theorem rules_follow (depth : Nat) : (rules depth).Follow (Grammar.rules depth) := by
  induction depth with
  | zero => exact follow_exhausted
  | succ depth ih => exact follow_around ih

theorem builds_deeply {form : Form} {builder : Rules → Builder NodeId}
    {parser : Grammar.Rules → Parser (Phrase form)}
    (builds : ∀ {rules grammar}, rules.Follow grammar →
      Builds (builder rules) (parser grammar) Phrase.layout) :
    Builds (deeply builder) (Grammar.deeply parser) Phrase.layout :=
  .phrase fun start => .read fun words => (builds (rules_follow (words.length + 1))).tracks start

end Build

namespace Rule

open Build

theorem builds_step (rule : Rule) {rules : Build.Rules} {grammar : Grammar.Rules}
    (follow : rules.Follow grammar) :
    Builds (rule.buildStep rules) (rule.step grammar) Phrase.layout := by
  cases rule with
  | selectColumn => exact builds_selectColumn (builds_column follow)
  | column => exact builds_column follow
  | operand => exact builds_operand follow
  | bracketOperand => exact builds_bracketOperand follow
  | condition => exact builds_condition follow
  | relation => exact builds_relation follow
  | statement => exact builds_statement follow
  | select => exact builds_select follow
  | top => exact builds_top follow
  | pivot => exact builds_pivot follow
  | groupBy => exact builds_groupBy follow
  | orderBy => exact builds_orderBy follow
  | orderItem => exact builds_orderItem follow
  | window => exact builds_window follow
  | optionHints => exact builds_optionHints

/-- Every rule adds the layout of the phrase that it recognises. -/
theorem builds (rule : Rule) : Builds rule.builder rule.parser Phrase.layout :=
  builds_deeply fun follow => rule.builds_step follow

/-- A rule to the end of the words. -/
theorem phrase_eq (rule : Rule) (maxDepth : Nat) (hooks : Hooks) (words : Words) :
    rule.phrase maxDepth hooks words =
      ((do
        let phrase ← rule.parser
        Parser.ending
        return phrase : Parser (Phrase rule.form)) { room := maxDepth, hooks } words).map
          Prod.fst := by
  rw [Parser.bind_apply, phrase]
  rcases rule.parser { room := maxDepth, hooks } words with fault | ⟨found, rest⟩
  · rfl
  · simp only [Parser.bind_apply]
    change ((Parser.ending { room := maxDepth, hooks } rest).bind fun _ => pure found) = _
    rcases Parser.ending { room := maxDepth, hooks } rest with fault | ⟨_, left⟩ <;> rfl

/-- What a rule grows from a whole sequence of words is the tree of the phrase. -/
theorem tree_eq (rule : Rule) (maxDepth : Nat) (hooks : Hooks) (words : Words) :
    rule.tree maxDepth hooks words =
      (rule.phrase maxDepth hooks words).map Phrase.tree := by
  have complete : Builds
      (do
        let id ← rule.builder
        Builder.read Parser.ending
        return id)
      (do
        let phrase ← rule.parser
        Parser.ending
        return phrase) Phrase.layout := by
    apply Builds.phrase
    intro start
    apply Tracks.call rule.builds
    intro phrase
    apply Tracks.read
    intro _
    exact .return' (by simp)
  have outcome := complete.tracks _ .nil { room := maxDepth, hooks } words 0 .new .new rfl
  rw [tree, phrase_eq]
  rcases answer : (do
      let phrase ← rule.parser
      Parser.ending
      return phrase : Parser (Phrase rule.form)) { room := maxDepth, hooks } words
    with fault | ⟨phrase, rest⟩
  · obtain ⟨left, nodes, -, ran⟩ := agrees_error.1 (answer ▸ outcome)
    rw [Tree.attachAll_nil] at ran
    simp only [ran]
    rfl
  · have ran := agrees_ok.1 (answer ▸ outcome)
    rw [Tree.attachAll_nil] at ran
    simp only [ran]
    rfl

end Rule

/-- Nodes are added while the source is read, and taken back where a reading is given up.  What
is left in the end are the nodes of the phrase that the source is, in the order of its layout. -/
theorem parse_eq (entry : EntryPoint) (source : String) (options : Options) (hooks : Hooks) :
    parse entry source options hooks =
      ((TokenStream.ofString source).phrase entry.rule options hooks).map Phrase.tree := by
  let stream := TokenStream.ofString source
  change (stream.screen options).bind (fun _ =>
      (entry.rule.tree options.maxDepth hooks stream.words).mapError _) =
    ((stream.screen options).bind fun _ =>
      (entry.rule.phrase options.maxDepth hooks stream.words).mapError _).map Phrase.tree
  rw [entry.rule.tree_eq]
  rcases stream.screen options with failure | _
  · rfl
  · rcases entry.rule.phrase options.maxDepth hooks stream.words with fault | phrase <;> rfl

/-- A source is accepted for the phrase that its words are. -/
theorem exists_accepted_phrase {entry : EntryPoint} {source : String} {options : Options}
    {hooks : Hooks} {tree : Tree} (parsed : parse entry source options hooks = .ok tree) :
    ∃ phrase : Phrase entry.rule.form, tree = phrase.tree ∧
      entry.rule.phrase options.maxDepth hooks (TokenStream.ofString source).words =
        .ok phrase := by
  rw [parse_eq] at parsed
  obtain ⟨phrase, read, rfl⟩ := map_eq_ok_iff.1 parsed
  refine ⟨phrase, rfl, ?_⟩
  obtain ⟨_, -, unreported⟩ := bind_eq_ok_iff.1 read
  cases found : entry.rule.phrase options.maxDepth hooks (TokenStream.ofString source).words with
  | error fault =>
      rw [found] at unreported
      cases unreported
  | ok other =>
      rw [found] at unreported
      cases unreported
      rfl

end SelectTree
