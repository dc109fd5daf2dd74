/-
Module: SelectTree.Proofs.Build.Condition
Purpose: the rules for conditions add the layouts of what the grammar recognises.
Main exports: Build.builds_condition, Build.builds_term, Build.builds_bracketedCondition
-/
import SelectTree.Build.Condition
import SelectTree.Proofs.Build.Column

namespace SelectTree

namespace Build

variable {rules : Rules} {grammar : Grammar.Rules} (follow : rules.Follow grammar)

include follow

/-- A bracketed statement adds the nodes of its statement. -/
theorem builds_bracketedStatement (label : String) :
    Builds (bracketedStatement rules label) (Grammar.bracketedStatement grammar label)
      Phrase.layout := by
  apply Builds.phrase
  intro start
  apply Tracks.bracketed
  intro opening
  apply Tracks.read
  intro statement
  cases statement with
  | true => exact .tail (builds_wholeStatement follow)
  | false =>
      apply Tracks.read
      intro _
      exact .tail (builds_wholeStatement follow)

/-- A bracket of a condition adds the nodes of the condition and its own node. -/
theorem builds_bracketedCondition :
    Builds (bracketedCondition rules) (Grammar.bracketedCondition grammar) Phrase.layout := by
  apply Builds.phrase
  intro start
  apply Tracks.bracketed
  intro opening
  have contents : Tracks start []
      (do
        let inner ← Builder.wholly rules.condition
        Builder.add (.condition (.bracket (some inner))))
      (do return .bracketedCondition (← Parser.wholly grammar.condition)) Phrase.layout := by
    apply Tracks.call follow.condition.wholly
    intro inner
    exact .add (by simp [Phrase.layout])
  apply Tracks.read
  intro words
  apply Tracks.read
  intro statement
  split
  · exact .read fun _ => contents
  · exact contents

/-! The column of a predicate is added before it is known what is said of it. -/

/-- Behind a column whose nodes are there, the rest of a membership adds the statement or the values
and then the node of the predicate. -/
theorem tracks_membership (start : Nat) (left : Column) (negated : Bool) :
    Tracks start (left.layout.run start).2
      (membership rules (left.layout.run start).1 negated)
      (Grammar.membership grammar left negated) Phrase.layout := by
  apply Tracks.bracketed
  intro opening
  apply Tracks.read
  intro statement
  cases statement with
  | true =>
      apply Tracks.call (builds_wholeStatement follow)
      intro statement
      exact .add (by simp [Phrase.layout, Nat.add_assoc])
  | false =>
      refine .callList follow.column.segments (.failAt _ _) fun first others => ?_
      exact .add (by simp [Phrase.layout, Nat.add_assoc])

/-- Behind a column whose nodes are there, the rest of a comparison adds the right side and then the
node of the predicate. -/
theorem tracks_comparison (start : Nat) (left : Column) :
    Tracks start (left.layout.run start).2
      (comparison rules (left.layout.run start).1)
      (Grammar.comparison grammar left) Phrase.layout := by
  apply Tracks.read
  intro next
  cases next.bind fun word => Grammar.orderOperator? word.kind with
  | none => exact .read fun words => .fail _
  | some operator =>
      apply Tracks.read
      intro _
      apply Tracks.read
      intro quantifier
      cases quantifier with
      | some quantifier =>
          apply Tracks.call (builds_bracketedStatement follow quantifier.text)
          intro statement
          exact .finish (.bind (.add _) (.add _)) (by simp [Phrase.layout, Nat.add_assoc])
      | none =>
          apply Tracks.call follow.column
          intro right
          exact .add (by simp [Phrase.layout, Nat.add_assoc])

/-- A predicate adds the nodes of its column first, whatever is said of the column. -/
theorem builds_predicate :
    Builds (predicate rules) (Grammar.predicate grammar) Phrase.layout := by
  apply Builds.phrase
  intro start
  apply Tracks.call (builds_column follow)
  intro left
  apply Tracks.read
  intro negated
  apply Tracks.read
  intro isIn
  split
  · exact tracks_membership follow start left negated
  apply Tracks.read
  intro isBetween
  split
  · apply Tracks.call follow.column
    intro lower
    apply Tracks.read
    intro _
    apply Tracks.call follow.column
    intro upper
    exact .add (by simp [Phrase.layout, Nat.add_assoc])
  apply Tracks.read
  intro isLike
  split
  · apply Tracks.call follow.column
    intro right
    exact .add (by simp [Phrase.layout, Nat.add_assoc])
  apply Tracks.read
  intro isIs
  split
  · apply Tracks.read
    intro absent
    apply Tracks.read
    intro _
    exact .add (by simp [Phrase.layout])
  · exact tracks_comparison follow start left

/-- A bracket that is not a condition after all has left no node: its attempt is taken back before a
predicate is built. -/
theorem builds_plainTerm :
    Builds (plainTerm rules) (Grammar.plainTerm grammar) Phrase.layout := by
  apply Builds.phrase
  intro start
  apply Tracks.read
  intro isNot
  split
  · apply Tracks.call follow.term.nested
    intro term
    exact .add (by simp [Phrase.layout])
  apply Tracks.read
  intro isExists
  split
  · apply Tracks.call (builds_bracketedStatement follow "EXISTS")
    intro statement
    exact .add (by simp [Phrase.layout])
  apply Tracks.read
  intro bracket
  split
  · refine .callOption (builds_bracketedCondition follow).attempt
      (.tail (builds_predicate follow)) fun found => ?_
    exact .return' (by simp)
  · exact .tail (builds_predicate follow)

/-- A term that no hook takes is built as its grammar reads it. -/
theorem builds_term : Builds (term rules) (Grammar.term grammar) Phrase.layout := by
  apply Builds.phrase
  intro start
  refine .callOption (.hooked _) (.tail (builds_plainTerm follow)) fun found => ?_
  exact .return' (by simp)

/-- A link adds the nodes of its term and a node that keeps the connective. -/
theorem builds_link :
    Builds (link rules) (Grammar.link grammar) (Layout.perhaps Phrase.layout) where
  contained := Layout.Contained.phrase.perhaps
  tracks := by
    intro start
    apply Tracks.read
    intro next
    cases next.bind fun word => Grammar.logicOperator? word.kind with
    | none => exact .return' rfl
    | some operator =>
        apply Tracks.read
        intro _
        apply Tracks.call (builds_term follow).committed
        intro term
        exact .finish (.name (.add _) rfl) (by simp [Phrase.layout])

/-- A condition adds its first term, its links and, if there are links, one node for the whole
chain. -/
theorem builds_condition :
    Builds (condition rules) (Grammar.condition grammar) Phrase.layout := by
  apply Builds.phrase
  intro start
  apply Tracks.call (builds_term follow)
  intro left
  refine .callList ((builds_link follow).many .phrase) ?_ fun first others => ?_
  · exact .return' (by simp [Phrase.layout])
  · exact .add (by simp [Phrase.layout, Nat.add_assoc])

end Build

end SelectTree
