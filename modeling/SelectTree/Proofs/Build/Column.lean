/-
Module: SelectTree.Proofs.Build.Column
Purpose: the rules for columns add the layouts of what the grammar recognises.
Main exports: Build.builds_column, Build.builds_window, Build.builds_orderItem,
  Build.builds_selectColumn
-/
import SelectTree.Build.Column
import SelectTree.Proofs.Build.Operand

namespace SelectTree

namespace Build

/-- A list behind a keyword adds the nodes of its items, and none if it is missing. -/
theorem builds_listBy {form : Form} {item : Builder NodeId} {parser : Parser (Phrase form)}
    (keyword : Keyword) (builds : Builds item parser Phrase.layout) :
    Builds (listBy keyword item) (Grammar.listBy keyword parser)
      (Layout.each Phrase.layout) where
  contained := Layout.Contained.phrase.each
  tracks := by
    intro start
    apply Tracks.read
    intro found
    cases found with
    | false => exact .return' rfl
    | true =>
        apply Tracks.read
        intro _
        apply Tracks.call builds.commaList
        intro values
        exact .return' (by simp [Layout.eachOf])

/-- Reads a column and perhaps an alias. -/
theorem builds_selectColumn {builder : Builder NodeId} {parser : Parser Column}
    (builds : Builds builder parser Phrase.layout) :
    Builds (selectColumn builder) (Grammar.selectColumn parser) Phrase.layout := by
  apply Builds.phrase
  intro start
  apply Tracks.call builds
  intro column
  apply Tracks.read
  intro called
  cases called with
  | none => exact .return' (by simp [Phrase.layout])
  | some called => exact .add (by simp [Phrase.layout])

variable {rules : Rules} {grammar : Grammar.Rules} (follow : rules.Follow grammar)

include follow

theorem builds_orderItem :
    Builds (orderItem rules) (Grammar.orderItem grammar) Phrase.layout := by
  apply Builds.phrase
  intro start
  apply Tracks.call follow.column
  intro column
  apply Tracks.read
  intro collation
  apply Tracks.read
  intro direction
  exact .add (by simp [Phrase.layout])

/-- A window adds its columns, its items and its own node. -/
theorem builds_window : Builds (window rules) (Grammar.window grammar) Phrase.layout := by
  apply Builds.phrase
  intro start
  apply Tracks.read
  intro _
  apply Tracks.bracketed
  intro _
  apply Tracks.call (builds_listBy .PARTITION follow.column)
  intro partitionBy
  apply Tracks.call (builds_listBy .ORDER (builds_orderItem follow))
  intro orderBy
  apply Tracks.read
  intro frame
  apply Tracks.read
  intro _
  exact .add (by simp [Phrase.layout, Nat.add_assoc])

/-- An operation adds its operand and its own node. -/
theorem builds_operation :
    Builds (operation rules) (Grammar.operation grammar) (Layout.perhaps Phrase.layout) where
  contained := Layout.Contained.phrase.perhaps
  tracks := by
    intro start
    apply Tracks.read
    intro next
    cases next.bind fun word => Grammar.arithmeticOperator? word.kind with
    | none => exact .return' rfl
    | some operator =>
        apply Tracks.read
        intro _
        apply Tracks.call (builds_operand follow)
        intro operand
        exact .finish (.name (.add _) rfl) (by simp [Phrase.layout])

/-- A run of operations is added before the window behind it is looked for. -/
theorem builds_column : Builds (column rules) (Grammar.column grammar) Phrase.layout := by
  apply Builds.phrase
  intro start
  apply Tracks.call (builds_operand follow)
  intro left
  apply Tracks.call ((builds_operation follow).many .phrase)
  intro operations
  have contained := Layout.Contained.phrase (.column left (.ofList operations) .absent) start
  cases operations with
  | nil =>
      refine .plant (.pure _) (by simpa [Phrase.layout, Perhaps.layout] using contained) ?_
      apply Tracks.read
      intro windowed
      cases windowed with
      | false => exact .return' (by simp [Phrase.layout, Perhaps.layout])
      | true =>
          simp only [if_true, map_eq_pure_bind, bind_assoc, pure_bind]
          apply Tracks.call (builds_window follow)
          intro window
          exact .add (by simp [Phrase.layout, Perhaps.layout, Nat.add_assoc])
  | cons first others =>
      refine .plant (.add _)
        (by simpa [Phrase.layout, Perhaps.layout, Nat.add_assoc] using contained) ?_
      apply Tracks.read
      intro windowed
      cases windowed with
      | false => exact .return' (by simp [Phrase.layout, Perhaps.layout, Nat.add_assoc])
      | true =>
          simp only [if_true, map_eq_pure_bind, bind_assoc, pure_bind]
          apply Tracks.call (builds_window follow)
          intro window
          exact .add (by simp [Phrase.layout, Perhaps.layout, Nat.add_assoc, Nat.add_comm 1])

end Build

end SelectTree
