/-
Module: SelectTree.Proofs.Grammar.Balance
Purpose: what a rule consumes has every bracket closed.
Main exports: Grammar.Composed.passes, Grammar.rules_pass, Rule.balanced
-/
import SelectTree.Proofs.Grammar.Composed.Query

namespace SelectTree

namespace Parser

variable {α : Type} {scope : Scope} {words rest : Words}

/-- A range of its own leaves the words as they are. -/
theorem within_ok_iff {range : Words} {body : Parser α} {value : α} :
    within range body scope words = .ok (value, rest) ↔
      rest = words ∧ ∃ left, body scope range = .ok (value, left) := by
  rw [within_apply]
  rcases body scope range with fault | ⟨found, left⟩
  · simp
  · simp only [Except.ok.injEq, Prod.mk.injEq]
    constructor
    · rintro ⟨rfl, rfl⟩
      exact ⟨rfl, left, rfl, rfl⟩
    · rintro ⟨rfl, _, rfl, _⟩
      exact ⟨rfl, rfl⟩

/-- Segments that are all read are read one by one, each to its end. -/
theorem mapM_within_ok {item : Parser α} {segments : List Words} {values : List α}
    (read : (segments.mapM fun segment => within segment (wholly item)) scope words =
      .ok (values, rest)) :
    rest = words ∧ ∀ segment ∈ segments, ∃ value, item scope segment = .ok (value, []) := by
  induction segments generalizing values rest with
  | nil =>
      cases read
      exact ⟨rfl, nofun⟩
  | cons segment segments ih =>
      rw [List.mapM_cons] at read
      obtain ⟨first, left, readFirst, readOthers⟩ := bind_ok_iff.1 read
      obtain ⟨others, behind, readOthers, ⟨⟩⟩ := bind_ok_iff.1 readOthers
      obtain ⟨rfl, left, whole⟩ := within_ok_iff.1 readFirst
      obtain ⟨same, all⟩ := ih readOthers
      refine ⟨same, ?_⟩
      intro other member
      rcases List.mem_cons.1 member with rfl | member
      · exact ⟨first, (wholly_ok_iff.1 whole).1⟩
      · exact all other member

/-- Reading all segments leaves nothing, and nothing is left of any of them. -/
theorem segments_ok {item : Parser α} {values : List α}
    (read : segments item scope words = .ok (values, rest)) :
    rest = [] ∧ ∀ segment ∈ Words.splitCommas words,
      ∃ value, item scope segment = .ok (value, []) := by
  obtain ⟨_, _, ⟨⟩, read⟩ := bind_ok_iff.1 read
  obtain ⟨_, left, readAll, read⟩ := bind_ok_iff.1 read
  obtain ⟨_, _, ⟨⟩, ⟨⟩⟩ := bind_ok_iff.1 read
  obtain ⟨rfl, all⟩ := mapM_within_ok readAll
  exact ⟨List.drop_length, all⟩

/-- A bracket that is opened is the one in front of the words. -/
theorem group?_of_openGroup {group : Words.Group} (opened : openGroup words = .ok group) :
    Words.group? words = some group := by
  unfold openGroup at opened
  split at opened
  · cases opened
  · split at opened
    · split at opened
      · next found =>
          cases opened
          exact found
      · cases opened
    · cases opened

end Parser

namespace Grammar

/-- Where the rules read something, they consume only words in which every bracket is closed. -/
def Rules.Pass (rules : Rules) : Prop :=
  ∀ (inner : Inner) (scope : Scope) (words : Words) (phrase : Phrase inner.form) (rest : Words),
    scope.hooks = {} → rules.apply inner scope words = .ok (phrase, rest) → words.Passes rest

/-- What is put together from rules that consume only balanced words does so itself. -/
theorem Composed.passes {α : Type} {parser : Rules → Parser α} {words : Words}
    (composed : Composed parser words) {rules : Rules} (pass : rules.Pass) :
    ∀ {scope : Scope} {value : α} {rest : Words}, scope.hooks = {} →
      parser rules scope words = .ok (value, rest) → words.Passes rest := by
  induction composed with
  | pure value words =>
      rintro scope _ _ - ⟨⟩
      exact .refl words
  | fail fault words =>
      rintro scope _ _ - ⟨⟩
  | remaining words =>
      rintro scope _ _ - ⟨⟩
      exact .refl words
  | skip count passes =>
      rintro scope _ _ - ⟨⟩
      exact passes
  | inner inner words =>
      intro scope phrase rest noHooks read
      exact pass inner scope words phrase rest noHooks read
  | bind _ _ first next =>
      intro scope result rest noHooks read
      obtain ⟨value, middle, readFirst, readNext⟩ := Parser.bind_ok_iff.1 read
      exact (first noHooks readFirst).trans
        (next rules scope value middle readFirst noHooks readNext)
  | within words _ _ =>
      intro scope value rest noHooks read
      obtain ⟨rfl, -⟩ := Parser.within_ok_iff.1 read
      exact .refl rest
  | bracketed _ _ =>
      intro scope value rest noHooks read
      dsimp only at read
      rw [Parser.bracketed_apply] at read
      split at read
      · cases read
      · next group opened =>
          split at read
          · cases read
          · split at read
            · cases read
              exact .of_group? (Parser.group?_of_openGroup opened)
            · cases read
  | segments _ item =>
      intro scope value rest noHooks read
      obtain ⟨rfl, all⟩ := Parser.segments_ok read
      rw [Words.Passes.nil_iff]
      apply Words.balanced_of_splitCommas
      intro segment member
      obtain ⟨found, readItem⟩ := all segment member
      exact Words.Passes.nil_iff.1 (item segment member noHooks readItem)
  | nested _ body =>
      intro scope value rest noHooks read
      dsimp only at read
      rw [Parser.nested_apply] at read
      split at read
      · refine body ?_ read
        exact noHooks
      · cases read
  | attempt _ body =>
      intro scope value rest noHooks read
      dsimp only at read
      rw [Parser.attempt_apply] at read
      split at read
      · next found =>
          cases read
          exact body noHooks found
      · split at read
        · cases read
          exact .refl _
        · cases read
  | committed _ body =>
      intro scope value rest noHooks read
      dsimp only at read
      rw [Parser.committed_apply] at read
      split at read
      · next found =>
          cases read
          exact body noHooks found
      · cases read
  | hooked choose words without =>
      intro scope value rest noHooks read
      dsimp only at read
      rw [Parser.hooked_eq_none (by rw [noHooks]; exact without)] at read
      cases read
      exact .refl words

theorem rules_pass (depth : Nat) : (rules depth).Pass := by
  induction depth with
  | zero =>
      intro inner scope words phrase rest _ read
      cases inner <;> cases read
  | succ depth ih =>
      intro inner scope words phrase rest noHooks read
      exact (composed_around words inner).passes ih noHooks read

end Grammar

/-- Whatever a rule consumes as a whole has every bracket closed, however deep the rules go. -/
theorem Rule.balanced (rule : Rule) {depth : Nat} {scope : Scope} {words : Words}
    {phrase : Phrase rule.form} (noHooks : scope.hooks = {})
    (read : rule.step (Grammar.rules depth) scope words = .ok (phrase, [])) : words.Balanced :=
  Words.Passes.nil_iff.1
    ((rule.composed_step words).passes (Grammar.rules_pass depth) noHooks read)

end SelectTree
