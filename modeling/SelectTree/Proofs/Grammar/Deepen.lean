/-
Module: SelectTree.Proofs.Grammar.Deepen
Purpose: what is read with some levels of rules and some room for brackets is read in the same way
  with more of both.
Main exports: Parser.Approximates, Scope.widen, Grammar.Composed.approximates,
  Grammar.rules_approximate, Rule.step_deeper
-/
import SelectTree.Proofs.Grammar.Balance

namespace SelectTree

/-- The scope with room for so many more levels of brackets. -/
def Scope.widen (scope : Scope) (extra : Nat) : Scope :=
  { scope with room := scope.room + extra }

namespace Parser

variable {α β : Type}

/-- An answer is the better one, unless a limit is all that it says. -/
def Approximates (answer better : Except Fault α) : Prop :=
  answer = better ∨ ∃ fault, answer = .error fault ∧ fault.kind = .depthLimit

namespace Approximates

theorem refl (answer : Except Fault α) : Approximates answer answer :=
  .inl rfl

/-- Where a limit was hit, anything may come out with more levels. -/
theorem limit {fault : Fault} {better : Except Fault α} (isLimit : fault.kind = .depthLimit) :
    Approximates (.error fault) better :=
  .inr ⟨fault, rfl, isLimit⟩

/-- What is read is read in the same way. -/
theorem eq_ok {value : α} {better : Except Fault α}
    (approximates : Approximates (.ok value) better) : better = .ok value := by
  rcases approximates with same | ⟨_, refused, _⟩
  · exact same.symm
  · cases refused

section Combine

variable {scope wider : Scope} {words : Words}

/-- What follows is asked only for values that the first parser gives. -/
theorem bind {first first' : Parser α} {next next' : α → Parser β}
    (one : Approximates (first scope words) (first' wider words))
    (two : ∀ value rest, first scope words = .ok (value, rest) →
      Approximates (next value scope rest) (next' value wider rest)) :
    Approximates ((first >>= next) scope words) ((first' >>= next') wider words) := by
  rw [bind_apply, bind_apply]
  rcases one with same | ⟨fault, refused, isLimit⟩
  · rw [← same]
    rcases read : first scope words with fault | ⟨value, rest⟩
    · exact .refl _
    · exact two value rest read
  · rw [refused]
    exact .limit isLimit

theorem within {range : Words} {body body' : Parser α}
    (inner : Approximates (body scope range) (body' wider range)) :
    Approximates (Parser.within range body scope words)
      (Parser.within range body' wider words) := by
  rw [within_apply, within_apply]
  rcases inner with same | ⟨fault, refused, isLimit⟩
  · rw [same]
    exact .refl _
  · rw [refused]
    exact .limit isLimit

theorem wholly {body body' : Parser α}
    (inner : Approximates (body scope words) (body' wider words)) :
    Approximates (Parser.wholly body scope words) (Parser.wholly body' wider words) := by
  apply inner.bind
  intro value rest _
  cases rest <;> exact .inl rfl

/-- By induction on the segments. -/
theorem mapM_within {item item' : Parser α} {segments : List Words}
    (each : ∀ segment ∈ segments, Approximates (item scope segment) (item' wider segment)) :
    Approximates
      ((segments.mapM fun segment => Parser.within segment (Parser.wholly item)) scope words)
      ((segments.mapM fun segment => Parser.within segment (Parser.wholly item')) wider words) := by
  induction segments generalizing words with
  | nil => exact .inl rfl
  | cons segment segments ih =>
      rw [List.mapM_cons, List.mapM_cons]
      apply (within (wholly (each segment List.mem_cons_self))).bind
      intro first rest _
      apply bind (ih fun other member => each other (List.mem_cons_of_mem _ member))
      intro others rest _
      exact .inl rfl

theorem segments {item item' : Parser α}
    (each : ∀ segment ∈ Words.splitCommas words,
      Approximates (item scope segment) (item' wider segment)) :
    Approximates (Parser.segments item scope words) (Parser.segments item' wider words) := by
  apply bind (.inl rfl)
  rintro _ rest ⟨⟩
  apply (mapM_within each).bind
  intro values rest _
  exact .inl rfl

/-- An attempt that gives up does so with more levels too, since a limit is no reason to give up. -/
theorem attempt {body body' : Parser α}
    (inner : Approximates (body scope words) (body' wider words)) :
    Approximates (Parser.attempt body scope words) (Parser.attempt body' wider words) := by
  rw [attempt_apply, attempt_apply]
  rcases inner with same | ⟨fault, refused, isLimit⟩
  · rw [same]
    exact .refl _
  · rw [refused]
    simp only [isLimit, reduceCtorEq, if_false]
    exact .limit isLimit

theorem committed {body body' : Parser α}
    (inner : Approximates (body scope words) (body' wider words)) :
    Approximates (Parser.committed body scope words) (Parser.committed body' wider words) := by
  rw [committed_apply, committed_apply]
  rcases inner with same | ⟨fault, refused, isLimit⟩
  · rw [same]
    exact .refl _
  · rw [refused]
    refine .limit ?_
    simp [Fault.committed, isLimit]

end Combine

section Widen

variable {scope : Scope} {words : Words} (extra : Nat)

/-- The level that is counted here fits with more levels too. -/
theorem nested {body body' : Parser α}
    (inner : ∀ scope : Scope, Approximates (body scope words) (body' (scope.widen extra) words)) :
    Approximates (Parser.nested body scope words)
      (Parser.nested body' (scope.widen extra) words) := by
  rw [nested_apply, nested_apply]
  by_cases fits : scope.nesting + 1 < scope.room
  · have wider : (scope.widen extra).nesting + 1 < (scope.widen extra).room :=
      Nat.lt_add_right extra fits
    simp only [checkNesting, if_pos fits, if_pos wider]
    exact inner { scope with nesting := scope.nesting + 1 }
  · simp only [checkNesting, if_neg fits]
    exact .limit rfl

/-- The bracket is the same one, and with more levels there is room for it too. -/
theorem bracketed {body body' : Word → Parser α}
    (inner : ∀ group, openGroup words = .ok group → ∀ scope : Scope,
      Approximates (body group.opening scope group.contents)
        (body' group.opening (scope.widen extra) group.contents)) :
    Approximates (Parser.bracketed body scope words)
      (Parser.bracketed body' (scope.widen extra) words) := by
  rw [bracketed_apply, bracketed_apply]
  rcases opened : openGroup words with fault | group
  · exact .refl _
  · rcases scope with ⟨room, nesting, hooks⟩
    cases room with
    | zero => exact .limit rfl
    | succ room =>
        have wider : enter (Scope.widen ⟨room + 1, nesting, hooks⟩ extra).room group.contents =
            .ok (room + extra) := by
          simp only [Scope.widen, Nat.add_right_comm room 1 extra]
          rfl
        have enters : enter (room + 1) group.contents = .ok room := rfl
        simp only [enters, wider]
        have contents : Approximates
            (body group.opening { room, nesting, hooks } group.contents)
            (body' group.opening { room := room + extra, nesting, hooks } group.contents) :=
          inner group opened { room, nesting, hooks }
        rcases contents with same | ⟨fault, refused, isLimit⟩
        · rw [same]
          exact .refl _
        · rw [refused]
          exact .limit isLimit

end Widen

end Approximates

end Parser

namespace Grammar

open SelectTree.Parser

/-- What the rules read, also with less room, the better rules read in the same way. -/
def Rules.Approximate (rules better : Rules) : Prop :=
  ∀ (inner : Inner) (scope : Scope) (extra : Nat) (words : Words),
    Approximates (rules.apply inner scope words) (better.apply inner (scope.widen extra) words)

/-- What is put together from better rules is better. -/
theorem Composed.approximates {α : Type} {parser : Rules → Parser α} {words : Words}
    (composed : Composed parser words) {rules better : Rules}
    (approximate : rules.Approximate better) (extra : Nat) :
    ∀ scope : Scope,
      Approximates (parser rules scope words) (parser better (scope.widen extra) words) := by
  induction composed with
  | pure _ _ => exact fun _ => .inl rfl
  | fail _ _ => exact fun _ => .inl rfl
  | remaining _ => exact fun _ => .inl rfl
  | skip _ _ => exact fun _ => .inl rfl
  | inner inner words => exact fun scope => approximate inner scope extra words
  | bind _ _ first next =>
      intro scope
      exact (first scope).bind fun value rest read => next rules scope value rest read scope
  | within words _ body => exact fun scope => (body scope).within
  | bracketed _ body =>
      intro scope
      apply Approximates.bracketed
      intro group opened
      exact body group (group?_of_openGroup opened)
  | segments _ item =>
      intro scope
      exact .segments fun segment member => item segment member scope
  | nested _ body => exact fun scope => .nested extra body
  | attempt _ body => exact fun scope => (body scope).attempt
  | committed _ body => exact fun scope => (body scope).committed
  | hooked choose words without => exact fun scope => .inl rfl

/-- More levels of rules are better. -/
theorem rules_approximate {depth deeper : Nat} (le : depth ≤ deeper) :
    (rules depth).Approximate (rules deeper) := by
  induction depth generalizing deeper with
  | zero =>
      intro inner scope extra words
      cases inner <;> exact .limit rfl
  | succ depth ih =>
      intro inner scope extra words
      cases deeper with
      | zero => cases le
      | succ deeper =>
          have better := ih (Nat.le_of_succ_le_succ le)
          exact (composed_around words inner).approximates better extra scope

end Grammar

/-- What a rule reads is read in the same way with more levels of rules and with more room. -/
theorem Rule.step_deeper (rule : Rule) {depth deeper : Nat} (le : depth ≤ deeper) (extra : Nat)
    {scope : Scope} {words rest : Words} {phrase : Phrase rule.form}
    (read : rule.step (Grammar.rules depth) scope words = .ok (phrase, rest)) :
    rule.step (Grammar.rules deeper) (scope.widen extra) words = .ok (phrase, rest) := by
  have better := (rule.composed_step words).approximates (Grammar.rules_approximate le) extra scope
  rw [read] at better
  exact better.eq_ok

end SelectTree
