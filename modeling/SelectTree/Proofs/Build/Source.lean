/-
Module: SelectTree.Proofs.Build.Source
Purpose: the rules for sources of rows add the layouts of what the grammar recognises.
Main exports: Build.builds_relation, Build.builds_source
-/
import SelectTree.Build.Source
import SelectTree.Proofs.Build.Condition

namespace SelectTree

namespace Build

/-- The nodes of what brackets around a source hold. -/
def bracketedSourceLayout : Relation ⊕ Statement → Layout (NodeId ⊕ NodeId)
  | .inl inner => .inl <$> inner.layout
  | .inr statement => .inr <$> statement.layout

/-- Both layouts of a bracketed source hold only nodes of their own. -/
theorem contained_bracketedSourceLayout : Layout.Contained bracketedSourceLayout := by
  intro contents start
  cases contents with
  | inl inner => simpa [bracketedSourceLayout] using Layout.Contained.phrase inner start
  | inr statement => simpa [bracketedSourceLayout] using Layout.Contained.phrase statement start

variable {rules : Rules} {grammar : Grammar.Rules} (follow : rules.Follow grammar)

include follow

/-- The brackets of a source add the nodes of the relation or of the statement inside. -/
theorem builds_bracketedSource :
    Builds (bracketedSource rules) (Grammar.bracketedSource grammar)
      bracketedSourceLayout where
  contained := contained_bracketedSourceLayout
  tracks := by
    intro start
    apply Tracks.bracketed
    intro opening
    have contents : Tracks start []
        (do
          if ← Builder.read Parser.startsStatement then
            let statement ← rules.wholeStatement
            return .inr statement
          else
            let inner ← Builder.wholly rules.relation
            return .inl inner)
        (do
          if ← Parser.startsStatement then return .inr (← grammar.wholeStatement)
          return .inl (← Parser.wholly grammar.relation)) bracketedSourceLayout := by
      apply Tracks.read
      intro statement
      split
      · apply Tracks.call (builds_wholeStatement follow)
        intro statement
        exact .return' (by simp [bracketedSourceLayout])
      · apply Tracks.call follow.relation.wholly
        intro inner
        exact .return' (by simp [bracketedSourceLayout])
    apply Tracks.read
    intro words
    split
    · exact .read fun _ => contents
    · exact contents

/-- A source adds the nodes of what stands in its brackets and its own node, and a table one node.
-/
theorem builds_source : Builds (source rules) (Grammar.source grammar) Phrase.layout := by
  apply Builds.phrase
  intro start
  apply Tracks.read
  intro bracket
  split
  · apply Tracks.call (builds_bracketedSource follow)
    intro contents
    cases contents with
    | inl inner =>
        simp only [bracketedSourceLayout, Layout.run_map]
        exact .add (by simp [Phrase.layout])
    | inr statement =>
        simp only [bracketedSourceLayout, Layout.run_map]
        apply Tracks.read
        intro called
        cases called with
        | none => exact .failHere _
        | some called => exact .add (by simp [Phrase.layout])
  · exact .tail (.leaf _)

/-- A join adds its source, its condition where one is required, and its own node. -/
theorem builds_join :
    Builds (join rules) (Grammar.join grammar) (Layout.perhaps Phrase.layout) where
  contained := Layout.Contained.phrase.perhaps
  tracks := by
    intro start
    apply Tracks.read
    intro type
    cases type with
    | none => exact .return' rfl
    | some type =>
        apply Tracks.call (builds_source follow)
        intro source
        split
        · apply Tracks.read
          intro _
          apply Tracks.call follow.condition
          intro condition
          exact .finish (.name (.add _) rfl) (by simp [Phrase.layout, Nat.add_assoc])
        · exact .finish (.name (.add _) rfl) (by simp [Phrase.layout])

/-- A relation adds its first source and its joins; without joins it is its source. -/
theorem builds_relation :
    Builds (relation rules) (Grammar.relation grammar) Phrase.layout := by
  apply Builds.phrase
  intro start
  apply Tracks.call (builds_source follow)
  intro left
  refine .callList ((builds_join follow).many .phrase) ?_ fun first others => ?_
  · exact .return' (by simp [Phrase.layout])
  · exact .add (by simp [Phrase.layout, Nat.add_assoc])

end Build

end SelectTree
