/-
Module: SelectTree.Proofs.Build.Statement
Purpose: the rules for whole queries add the layouts of what the grammar recognises.
Main exports: Build.builds_statement, Build.builds_select, Build.builds_block, Build.builds_cte
-/
import SelectTree.Build.Statement
import SelectTree.Proofs.Build.Clause
import SelectTree.Proofs.Build.Source

namespace SelectTree

namespace Build

/-- The nodes of the modifiers that are read so far. -/
def modifiersLayout (modifiers : Grammar.Modifiers) : Layout Modifiers := do
  let top ← modifiers.top.layout
  pure { top, distinct := modifiers.distinct }

/-- Only `TOP` has nodes. -/
theorem contained_modifiersLayout : Layout.Contained modifiersLayout := by
  intro modifiers start
  simpa [modifiersLayout] using Layout.Contained.perhapsPhrase modifiers.top start

/-- A clause that may be missing and reads its keyword itself. -/
theorem builds_clause {form : Form} {builder : Builder NodeId} {parser : Parser (Phrase form)}
    (keyword : Keyword) (builds : Builds builder parser Phrase.layout) :
    Builds (clause keyword builder) (Grammar.clause keyword parser) Perhaps.layout where
  contained := .perhapsPhrase
  tracks := by
    intro start
    apply Tracks.read
    intro found
    cases found with
    | false => exact .return' rfl
    | true =>
        apply Tracks.call builds
        intro phrase
        exact .return' (by simp [Perhaps.layout])

/-- A phrase that may be missing, behind its keyword. -/
theorem builds_behind {form : Form} {builder : Builder NodeId} {parser : Parser (Phrase form)}
    (keyword : Keyword) (builds : Builds builder parser Phrase.layout) :
    Builds (behind keyword builder) (Grammar.behind keyword parser) Perhaps.layout where
  contained := .perhapsPhrase
  tracks := by
    intro start
    apply Tracks.read
    intro found
    cases found with
    | false => exact .return' rfl
    | true =>
        apply Tracks.call builds
        intro phrase
        exact .return' (by simp [Perhaps.layout])

variable {rules : Rules} {grammar : Grammar.Rules} (follow : rules.Follow grammar)

include follow

/-- A second `TOP` is not read, so the nodes of the modifiers so far all stay in use. -/
theorem tracks_modifier {γ δ : Type} {start : Nat} {layout : γ → Layout δ}
    {modifiers : Grammar.Modifiers} {next : Option Modifier → Builder δ}
    {rest : Option Grammar.Modifier → Parser γ}
    (nothing : Tracks start ((modifiersLayout modifiers).run start).2 (next none) (rest none)
      layout)
    (distinct : Tracks start ((modifiersLayout modifiers).run start).2 (next (some .distinct))
      (rest (some .distinct)) layout)
    (all : Tracks start ((modifiersLayout modifiers).run start).2 (next (some .all))
      (rest (some .all)) layout)
    (first : modifiers.top = .absent → ∀ top : Phrase .top,
      Tracks start (top.layout.run start).2 (next (some (.top (top.layout.run start).1)))
        (rest (some (.top top))) layout) :
    Tracks start ((modifiersLayout modifiers).run start).2
      (modifier rules ((modifiersLayout modifiers).run start).1 >>= next)
      (Grammar.modifier grammar modifiers >>= rest) layout := by
  unfold modifier Grammar.modifier
  simp only [bind_assoc]
  apply Tracks.read
  intro found
  cases found with
  | true => exact distinct
  | false =>
      simp only [Bool.false_eq_true, if_false, bind_assoc]
      apply Tracks.read
      intro found
      cases found with
      | true => exact all
      | false =>
          simp only [Bool.false_eq_true, if_false]
          obtain ⟨top, isDistinct⟩ := modifiers
          cases top with
          | present top =>
              simpa [modifiersLayout, Perhaps.layout] using nothing
          | absent =>
              simp only [modifiersLayout, Perhaps.layout, Layout.run_bind, Layout.run_pure,
                bind_assoc]
              apply Tracks.read
              intro found
              cases found with
              | false =>
                  simpa [modifiersLayout, Perhaps.layout] using nothing
              | true =>
                  simp only [if_true, bind_assoc, pure_bind]
                  apply Tracks.call (builds_top follow)
                  intro top
                  exact first rfl top

/-- By induction on how many modifiers may follow, for whatever has been read so far. -/
theorem tracks_modifiersUpTo (count start : Nat) (modifiers : Grammar.Modifiers) :
    Tracks start ((modifiersLayout modifiers).run start).2
      (modifiersUpTo rules count ((modifiersLayout modifiers).run start).1)
      (Grammar.modifiersUpTo grammar count modifiers) modifiersLayout := by
  induction count generalizing modifiers with
  | zero => exact .return' rfl
  | succ count ih =>
      refine tracks_modifier follow (.return' rfl) ?distinct ?all ?first
      case distinct =>
        simpa [modifiersLayout, Modifiers.add, Grammar.Modifiers.add] using
          ih (modifiers.add .distinct)
      case all =>
        simpa [modifiersLayout, Modifiers.add, Grammar.Modifiers.add] using
          ih (modifiers.add .all)
      case first =>
        intro _ top
        simpa [modifiersLayout, Perhaps.layout, Modifiers.add, Grammar.Modifiers.add] using
          ih (modifiers.add (.top top))

/-- All modifiers in front of the columns. -/
theorem builds_modifiers :
    Builds (modifiers rules) (Grammar.modifiers grammar) modifiersLayout where
  contained := contained_modifiersLayout
  tracks := fun start => .read fun words =>
    tracks_modifiersUpTo follow words.length start {}

/-- The relations behind `FROM`, if it is there. -/
theorem builds_sources :
    Builds (sources rules) (Grammar.sources grammar) (Layout.each Phrase.layout) where
  contained := Layout.Contained.phrase.each
  tracks := by
    intro start
    apply Tracks.read
    intro found
    cases found with
    | false => exact .return' rfl
    | true =>
        apply Tracks.call follow.relation.commaList
        intro relations
        exact .return' (by simp [Layout.eachOf])

/-- The parts of a block are added in the order in which they are written, the block behind them. -/
theorem builds_block {chained : Bool} (connective : Connective chained) :
    Builds (block rules connective.operator?) (Grammar.block grammar connective)
      Phrase.layout := by
  apply Builds.phrase
  intro start
  apply Tracks.read
  intro _
  apply Tracks.call (builds_modifiers follow)
  intro modifiers
  apply Tracks.call (builds_selectColumn follow.column).commaList
  intro columns
  obtain ⟨first, others⟩ := columns
  apply Tracks.call (builds_sources follow)
  intro sources
  apply Tracks.call (builds_clause .PIVOT (builds_pivot follow))
  intro pivot
  apply Tracks.call (builds_behind .WHERE follow.condition)
  intro filter
  apply Tracks.call (builds_clause .GROUP (builds_groupBy follow))
  intro groupBy
  apply Tracks.call (builds_behind .HAVING follow.condition)
  intro having
  exact .add (by simp [Phrase.layout, modifiersLayout, Layout.eachOf, Nat.add_assoc])

/-- A block that nothing is chained to. -/
theorem builds_select : Builds (select rules) (Grammar.select grammar) Phrase.layout :=
  (builds_block follow .start).committed

/-- A block behind a set operator, if there is one more. -/
theorem builds_chainedBlock :
    Builds (chainedBlock rules) (Grammar.chainedBlock grammar)
      (Layout.perhaps Phrase.layout) where
  contained := Layout.Contained.phrase.perhaps
  tracks := by
    intro start
    apply Tracks.read
    intro operator
    cases operator with
    | none => exact .return' rfl
    | some operator =>
        apply Tracks.call (builds_block follow (.chained operator))
        intro block
        exact .return' (by simp)

/-- The brackets of a common table expression must hold a statement. -/
theorem builds_cteStatement (name : Identifier) :
    Builds (cteStatement rules name) (Grammar.cteStatement grammar name) Phrase.layout := by
  apply Builds.phrase
  intro start
  apply Tracks.bracketed
  intro opening
  apply Tracks.read
  intro statement
  cases statement with
  | true => exact .tail (builds_wholeStatement follow)
  | false =>
      apply Tracks.read
      intro _
      exact .tail (builds_wholeStatement follow)

/-- The names of the columns may be missing, and are no nodes. -/
theorem builds_cte : Builds (cte rules) (Grammar.cte grammar) Phrase.layout := by
  apply Builds.phrase
  intro start
  have defined (name : Identifier) (columns : List Identifier) : Tracks start []
      (do
        let _ ← Builder.read (Parser.expectKeyword .AS)
        let statement ← cteStatement rules name
        Builder.add (.element (.cte name columns (some statement))))
      (do
        let _ ← Parser.expectKeyword .AS
        return .cte name columns (← Grammar.cteStatement grammar name)) Phrase.layout := by
    apply Tracks.read
    intro _
    apply Tracks.call (builds_cteStatement follow name)
    intro statement
    exact .add (by simp [Phrase.layout])
  apply Tracks.read
  intro name
  apply Tracks.read
  intro bracket
  cases bracket with
  | true => exact .read fun columns => defined name columns
  | false => exact defined name []

/-- The common table expressions behind `WITH`, if it is there. -/
theorem builds_ctes :
    Builds (ctes rules) (Grammar.ctes grammar) (Layout.each Phrase.layout) where
  contained := Layout.Contained.phrase.each
  tracks := by
    intro start
    apply Tracks.read
    intro found
    cases found with
    | false => exact .return' rfl
    | true =>
        apply Tracks.call (builds_cte follow).commaList
        intro ctes
        exact .return' (by simp [Layout.eachOf])

/-- The parts of a statement are added in the order in which they are written. -/
theorem builds_statementBody :
    Builds (statementBody rules) (Grammar.statementBody grammar) Phrase.layout := by
  apply Builds.phrase
  intro start
  apply Tracks.call (builds_ctes follow)
  intro ctes
  apply Tracks.call (builds_block follow .start)
  intro first
  apply Tracks.call ((builds_chainedBlock follow).many .phrase)
  intro others
  apply Tracks.call (builds_clause .ORDER (builds_orderBy follow))
  intro orderBy
  apply Tracks.call (builds_clause .OPTION builds_optionHints)
  intro options
  exact .add (by simp [Phrase.layout, Nat.add_assoc])

/-- Inside a statement nothing is taken back for being no condition. -/
theorem builds_statement :
    Builds (statement rules) (Grammar.statement grammar) Phrase.layout :=
  (builds_statementBody follow).committed

end Build

end SelectTree
