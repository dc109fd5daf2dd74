/-
Module: SelectTree.Proofs.Build.Clause
Purpose: the rules for clauses add the layouts of what the grammar recognises.
Main exports: Build.builds_top, Build.builds_pivot, Build.builds_groupBy, Build.builds_orderBy,
  Build.builds_optionHints
-/
import SelectTree.Build.Clause
import SelectTree.Proofs.Build.Column

namespace SelectTree

namespace Build

/-- The nodes of what the brackets of a pivot hold. -/
def pivotBodyLayout :
    Column × Column × Column × List Column → Layout (NodeId × NodeId × NodeId × List NodeId)
  | (aggregation, pivotColumn, first, others) => do
      let aggregation ← aggregation.layout
      let pivotColumn ← pivotColumn.layout
      let first ← first.layout
      let others ← Layout.each Phrase.layout others
      pure (aggregation, pivotColumn, first, others)

/-- These are the nodes of columns behind one another. -/
theorem contained_pivotBodyLayout : Layout.Contained pivotBodyLayout := by
  rintro ⟨aggregation, pivotColumn, first, others⟩ start
  have columns := Layout.Contained.phrase.each
    (aggregation :: pivotColumn :: first :: others) start
  simpa [pivotBodyLayout] using columns

/-- The nodes of an element of a list to group by, and whether it is a plain column. -/
def groupElementLayout (element : Phrase .groupElement) : Layout (Bool × NodeId) := do
  let id ← element.layout
  pure (element.isPlainElement, id)

/-- The marks are added to what the elements lay out, and add no nodes. -/
theorem run_each_groupElementLayout (elements : List (Phrase .groupElement)) (start : Nat) :
    (Layout.each groupElementLayout elements).run start =
      ((elements.map Phrase.isPlainElement).zip
        ((Layout.each Phrase.layout elements).run start).1,
        ((Layout.each Phrase.layout elements).run start).2) := by
  induction elements generalizing start with
  | nil => rfl
  | cons element elements ih =>
      rw [Layout.run_each_cons, ih]
      simp [groupElementLayout]

/-- A mark adds no nodes. -/
theorem contained_groupElementLayout : Layout.Contained groupElementLayout := by
  intro element start
  simpa [groupElementLayout] using Layout.Contained.phrase element start

/-- The set of the plain columns among the elements of a list to group by, if there are any. -/
def plainSetLayout (elements : List (Bool × NodeId)) : Layout Slot :=
  let plain := (elements.filter (·.1)).map Prod.snd
  if plain.isEmpty then pure none
  else some <$> Layout.emit (.element (.groupingSet .columns (slots plain)))

/-- The set of the plain columns is laid out as it is added. -/
theorem plants_addPlainSet (elements : List (Bool × NodeId)) (start : Nat) :
    Plants (addPlainSet elements) start ((plainSetLayout elements).run start).1
      ((plainSetLayout elements).run start).2 := by
  by_cases empty : ((elements.filter (·.1)).map Prod.snd).isEmpty
  · simp only [addPlainSet, plainSetLayout, empty, if_true]
    exact .pure _
  · simp only [addPlainSet, plainSetLayout, empty, Bool.false_eq_true, if_false,
      Layout.run_map, map_eq_pure_bind]
    exact .name (.add _) rfl

/-- The elements first, then the set of the plain columns, then the whole list. -/
theorem run_layout_groupList (first : Phrase .groupElement)
    (others : List (Phrase .groupElement)) (start : Nat) :
    (Phrase.groupList first (.ofList others)).layout.run start =
      (do
        let (first, others) ← Layout.eachOf groupElementLayout (first, others)
        let plainSet ← plainSetLayout (first :: others)
        Layout.emit (.element (.groupBy false
          (slots (gatherSets (first :: others) plainSet)))) : Layout NodeId).run start := by
  simp only [Phrase.layout, Layout.eachOf, groupElementLayout, run_each_groupElementLayout,
    plainSetLayout, Layout.run_bind, Layout.run_pure, Layout.layout_ofList,
    Phrases.toList_ofList, List.append_nil, List.map_cons, List.zip_cons_cons]
  split <;> simp [Nat.add_assoc]

/-- Hints have no children, so they are read before anything is added. -/
theorem builds_optionHints : Builds optionHints Grammar.optionHints Phrase.layout :=
  .leaf _

variable {rules : Rules} {grammar : Grammar.Rules} (follow : rules.Follow grammar)

include follow

/-- The count is an operand; `PERCENT` and `WITH TIES` are read behind it. -/
theorem builds_top : Builds (top rules) (Grammar.top grammar) Phrase.layout := by
  apply Builds.phrase
  intro start
  apply Tracks.read
  intro _
  apply Tracks.read
  intro next
  have counted : Tracks start []
      (do
        let count ← rules.operand
        let percent ← Builder.read (Parser.eatKeyword .PERCENT)
        let withTies ← Builder.read (Parser.eatKeyword .WITH)
        if withTies then
          let _ ← Builder.read (Parser.expectKeyword .TIES)
        Builder.add (.element (.top (some count) percent withTies)))
      (do
        let count ← grammar.operand
        let percent ← Parser.eatKeyword .PERCENT
        let withTies ← Parser.eatKeyword .WITH
        if withTies then
          let _ ← Parser.expectKeyword .TIES
        return .top count percent withTies) Phrase.layout := by
    apply Tracks.call follow.operand
    intro count
    apply Tracks.read
    intro percent
    apply Tracks.read
    intro withTies
    cases withTies with
    | true =>
        apply Tracks.read
        intro _
        exact .add (by simp [Phrase.layout])
    | false => exact .add (by simp [Phrase.layout])
  split
  · exact .read fun _ => counted
  · exact counted

/-- The values of a pivot, of which there must be one. -/
theorem builds_pivotValues :
    Builds
      (Builder.bracketed fun opening => do
        match ← Builder.segments rules.column with
        | [] => Builder.failAt opening (.requires "PIVOT" "at least one value")
        | first :: others => return (first, others))
      (Parser.bracketed fun opening => do
        match ← Parser.segments grammar.column with
        | [] => Parser.failAt opening (.requires "PIVOT" "at least one value")
        | first :: others => return (first, others))
      (Layout.eachOf Phrase.layout) where
  contained := Layout.Contained.phrase.eachOf
  tracks := by
    intro start
    apply Tracks.bracketed
    intro _
    refine .callList follow.column.segments (.failAt _ _) fun first others => ?_
    exact .return' (by simp [Layout.eachOf])

/-- The aggregation is what is in front of `FOR`, and must be a column as a whole. -/
theorem builds_pivotBody (opening : Word) :
    Builds (pivotBody rules opening) (Grammar.pivotBody grammar opening) pivotBodyLayout where
  contained := contained_pivotBodyLayout
  tracks := by
    intro start
    apply Tracks.read
    intro words
    cases Words.firstKeyword? .FOR words with
    | none => exact .failAt _ _
    | some place =>
        apply Tracks.call (follow.column.wholly.within _)
        intro aggregation
        apply Tracks.read
        intro _
        apply Tracks.call follow.column
        intro pivotColumn
        apply Tracks.read
        intro _
        apply Tracks.call (builds_pivotValues follow)
        intro columns
        apply Tracks.read
        intro _
        exact .return' (by simp [pivotBodyLayout, Layout.eachOf, Nat.add_assoc])

/-- The node of a pivot is added when its alias is read. -/
theorem builds_pivot : Builds (pivot rules) (Grammar.pivot grammar) Phrase.layout := by
  apply Builds.phrase
  intro start
  apply Tracks.read
  intro _
  have body : Builds (Builder.bracketed (pivotBody rules))
      (Parser.bracketed (Grammar.pivotBody grammar)) pivotBodyLayout :=
    { contained := contained_pivotBodyLayout
      tracks := fun start => .bracketed fun opening =>
        (builds_pivotBody follow opening).tracks start }
  apply Tracks.call body
  intro contents
  obtain ⟨aggregation, pivotColumn, first, others⟩ := contents
  apply Tracks.read
  intro called
  cases called with
  | none => exact .failHere _
  | some called => exact .add (by simp [Phrase.layout, pivotBodyLayout, Nat.add_assoc])

/-- The columns of a grouping function, of which there must be one. -/
theorem builds_functionSet (function : GroupingFunction) :
    Builds (functionSet rules function) (Grammar.functionSet grammar function)
      Phrase.layout := by
  apply Builds.phrase
  intro start
  apply Tracks.read
  intro _
  apply Tracks.bracketed
  intro opening
  refine .callList follow.column.segments (.failAt _ _) fun first others => ?_
  exact .add (by simp [Phrase.layout, Nat.add_assoc])

/-- A grouping function, columns in brackets or one column alone. -/
theorem builds_groupingSet :
    Builds (groupingSet rules) (Grammar.groupingSet grammar) Phrase.layout := by
  apply Builds.phrase
  intro start
  apply Tracks.read
  intro words
  cases Grammar.groupingFunction? words with
  | some function =>
      exact .tailAs (builds_functionSet follow function) fun set => by rw [Phrase.layout]
  | none =>
      apply Tracks.read
      intro bracket
      split
      · apply Tracks.call (builds_columnList follow)
        intro columns
        exact .add (by simp [Phrase.layout])
      · apply Tracks.call follow.column
        intro column
        exact .add (by simp [Phrase.layout])

/-- The sets of `GROUPING SETS`, of which there must be one. -/
theorem builds_groupingSets :
    Builds (groupingSets rules) (Grammar.groupingSets grammar) Phrase.layout := by
  apply Builds.phrase
  intro start
  apply Tracks.bracketed
  intro opening
  refine .callList (builds_groupingSet follow).segments (.failAt _ _) fun first others => ?_
  exact .add (by simp [Phrase.layout, Nat.add_assoc])

/-- An element is marked by what it begins with. -/
theorem builds_groupElement :
    Builds (groupElement rules) (Grammar.groupElement grammar) groupElementLayout where
  contained := contained_groupElementLayout
  tracks := by
    intro start
    apply Tracks.read
    intro words
    cases Grammar.groupingFunction? words with
    | some function =>
        apply Tracks.call (builds_functionSet follow function)
        intro set
        exact .return' (by simp [groupElementLayout, Phrase.layout, Phrase.isPlainElement])
    | none =>
        apply Tracks.call follow.column
        intro column
        exact .return' (by simp [groupElementLayout, Phrase.layout, Phrase.isPlainElement])

/-- The columns of the list become a set only when all elements are read. -/
theorem builds_groupBy : Builds (groupBy rules) (Grammar.groupBy grammar) Phrase.layout := by
  apply Builds.phrase
  intro start
  apply Tracks.read
  intro _
  apply Tracks.read
  intro _
  apply Tracks.read
  intro grouping
  split
  · apply Tracks.read
    intro _
    exact .tail (builds_groupingSets follow)
  · apply Tracks.call (builds_groupElement follow).commaList
    intro elements
    obtain ⟨first, others⟩ := elements
    exact .finish (.bind (plants_addPlainSet _ _) (.add _))
      (by simp [run_layout_groupList, Nat.add_assoc])

/-- The rows to leave out, if any are. -/
theorem builds_offset : Builds (offset rules) (Grammar.offset grammar) Perhaps.layout where
  contained := .perhapsPhrase
  tracks := by
    intro start
    apply Tracks.read
    intro found
    cases found with
    | false => exact .return' rfl
    | true =>
        apply Tracks.call follow.column
        intro count
        apply Tracks.read
        intro _
        exact .return' (by simp [Perhaps.layout])

/-- The rows to take, if not all are.  `NEXT` and `FIRST` mean the same. -/
theorem builds_fetch : Builds (fetch rules) (Grammar.fetch grammar) Perhaps.layout where
  contained := .perhapsPhrase
  tracks := by
    intro start
    have counted : Tracks start []
        (do
          let count ← rules.column
          Builder.read Grammar.rowsWord
          let _ ← Builder.read (Parser.expectKeyword .ONLY)
          return some count)
        (do
          let count ← grammar.column
          Grammar.rowsWord
          let _ ← Parser.expectKeyword .ONLY
          return .present count) Perhaps.layout := by
      apply Tracks.call follow.column
      intro count
      apply Tracks.read
      intro _
      apply Tracks.read
      intro _
      exact .return' (by simp [Perhaps.layout])
    apply Tracks.read
    intro found
    cases found with
    | false => exact .return' rfl
    | true =>
        apply Tracks.read
        intro next
        cases next with
        | true => exact counted
        | false =>
            apply Tracks.read
            intro first
            cases first with
            | true => exact counted
            | false => exact .read fun _ => counted

/-- The items first, then `OFFSET` and `FETCH`. -/
theorem builds_orderBy : Builds (orderBy rules) (Grammar.orderBy grammar) Phrase.layout := by
  apply Builds.phrase
  intro start
  apply Tracks.read
  intro _
  apply Tracks.read
  intro _
  apply Tracks.call (builds_orderItem follow).commaList
  intro items
  obtain ⟨first, others⟩ := items
  apply Tracks.call (builds_offset follow)
  intro offset
  apply Tracks.call (builds_fetch follow)
  intro fetch
  exact .add (by simp [Phrase.layout, Layout.eachOf, Nat.add_assoc])

end Build

end SelectTree
