/-
Module: SelectTree.Proofs.Build.Assembled.Query
Purpose: the rules for sources of rows, clauses and statements are put together from the rules
  inside, and with them all rules of the grammar.
Main exports: Build.assembled_relation, Build.assembled_statement, Build.assembled_around,
  Build.rules_orderly
-/
import SelectTree.Proofs.Build.Assembled.Expression

namespace SelectTree.Build

open SelectTree.Parser
open SelectTree.Grammar

variable {bound : Nat} {settled : Bool}

/-! ### Sources of rows -/

/-- The relation or the statement inside stands behind the opening bracket. -/
theorem assembled_bracketedSource :
    Assembled bound false .start (fun rules => bracketedSource rules) fun _ => .behind := by
  have contents : Assembled bound false .behind (fun rules => do
      if ← Builder.read startsStatement then
        let statement ← rules.wholeStatement
        return Sum.inr statement
      else
        let inner ← Builder.wholly rules.relation
        return Sum.inl inner) fun _ => .behind := by
    refine .reads .startsStatement fun statement => ?_
    cases statement with
    | true => exact .bind assembled_wholeStatement fun _ => .pure _ (.inr rfl)
    | false => exact .bind (.wholly (.inner .relation nofun)) fun _ => .pure _ (.inr rfl)
  refine .bracketed fun opening => ?_
  refine .look fun words _ => ?_
  cases words.isEmpty with
  | true => exact .refuseAt opening rfl
  | false => exact contents

/-- A source takes a bracket or the name of a table. -/
theorem assembled_source :
    Assembled bound false .start (fun rules => source rules) fun _ => .behind := by
  refine .reads (.check .leftParen) fun bracket => ?_
  cases bracket with
  | false => exact .leaf orderly_table
  | true =>
      refine .bind assembled_bracketedSource fun found => ?_
      cases found with
      | inl inner => exact .add _
      | inr statement =>
          refine .reads (Orderly.aliasName false).onward fun called => ?_
          cases called with
          | some called => exact .add _
          | none => exact .failHere _

/-- A join is found behind its keywords, which stand in front of its source. -/
theorem assembled_join :
    Assembled bound false .start (fun rules => join rules) Lead.ofFound := by
  refine .reads orderly_joinType fun type => ?_
  cases type with
  | none => exact .pure none (.inl rfl)
  | some type =>
      refine .bind assembled_source.onward fun source => ?_
      split
      · refine .reads (Orderly.expectKeyword .ON).onward fun _ => ?_
        refine .call .condition nofun fun condition => ?_
        exact .bind (.add _) fun join => .pure (some join) (.inr rfl)
      · exact .bind (.add _) fun join => .pure (some join) (.inr rfl)

/-- The joins of a relation are looked for behind its first source. -/
theorem assembled_relation :
    Assembled bound false .start (fun rules => relation rules) fun _ => .behind := by
  refine .bind assembled_source fun left => ?_
  refine .bind (.many assembled_join.onward) fun joins => ?_
  split
  · exact .pure left (.inr rfl)
  · exact .add _

/-! ### Clauses -/

/-- The count of `TOP` is read behind the keyword, and only if a word that may begin it is there. -/
theorem assembled_top :
    Assembled bound settled .start (fun rules => top rules) fun _ => .behind := by
  have count : Assembled bound settled .behind (fun rules => do
      let count ← rules.operand
      let percent ← Builder.read (eatKeyword .PERCENT)
      let withTies ← Builder.read (eatKeyword .WITH)
      if withTies then
        let _ ← Builder.read (expectKeyword .TIES)
      Builder.add (.element (.top (some count) percent withTies))) fun _ => .behind := by
    refine .call .operand (fun _ => rfl) fun count => ?_
    refine .reads (Orderly.eatKeyword .PERCENT).onward fun percent => ?_
    refine .reads (Orderly.eatKeyword .WITH).onward fun withTies => ?_
    cases withTies with
    | true => exact .reads (Orderly.expectKeyword .TIES).onward fun _ => .add _
    | false => exact .add _
  refine .reads (.expectKeyword .TOP) fun _ => ?_
  refine .reads .peek fun next => ?_
  cases next.any fun word => startsCount word.kind with
  | true => exact count
  | false => exact .refuseHere _

/-- The aggregation is read on the words in front of `FOR`, which are fewer than those in the
bracket. -/
theorem assembled_pivotBody (opening : Word) :
    Assembled bound settled .behind (fun rules => pivotBody rules opening) fun _ => .behind := by
  refine .look fun words holds => ?_
  cases Words.firstKeyword? .FOR words with
  | none => exact .failAt opening rfl
  | some place =>
      have fits : Lead.behind.Holds bound (words.take place) :=
        holds.behind_of_le (List.take_sublist ..).length_le
      refine .bind (.within fits assembled_wholeColumn) fun aggregation => ?_
      refine .reads (.skip (place + 1) (by decide)) fun _ => ?_
      refine .call .column (fun _ => rfl) fun pivotColumn => ?_
      refine .reads (Orderly.expectKeyword .IN).onward fun _ => ?_
      refine .bind (.bracketed fun valuesOpening => ?_) fun values => ?_
      · exact assembled_someColumns (.failAt valuesOpening rfl) fun _ _ => .pure _ (.inr rfl)
      · exact .reads .expectEnd fun _ => .pure _ (.inr rfl)

theorem assembled_pivot :
    Assembled bound settled .start (fun rules => pivot rules) fun _ => .behind := by
  refine .reads (.expectKeyword .PIVOT) fun _ => ?_
  refine .bind (.bracketed assembled_pivotBody) fun parts => ?_
  refine .reads (Orderly.aliasName false).onward fun called => ?_
  cases called with
  | some called => exact .add _
  | none => exact .failHere _

/-- The keyword of a grouping function is skipped before its bracket is entered. -/
theorem assembled_functionSet (function : GroupingFunction) :
    Assembled bound settled .start (fun rules => functionSet rules function)
      fun _ => .behind := by
  refine .reads (.skip 1 (by decide)) fun _ => ?_
  refine .bracketed fun opening => ?_
  exact assembled_someColumns (.failAt opening rfl) fun _ _ => .add _

/-- A grouping set applies its rules at once, so it may stand only behind a word. -/
theorem assembled_groupingSet :
    Assembled bound settled .behind (fun rules => groupingSet rules) fun _ => .behind := by
  refine .look fun words _ => ?_
  cases groupingFunction? words with
  | some function => exact (assembled_functionSet function).onward
  | none =>
      refine .reads (.check .leftParen) fun bracket => ?_
      cases bracket with
      | true => exact .bind assembled_columnList.onward fun columns => .add _
      | false => exact .call .column (fun _ => rfl) fun column => .add _

/-- Each set is read on its segment of the bracket, behind the opening bracket. -/
theorem assembled_groupingSets :
    Assembled bound settled .start (fun rules => groupingSets rules) fun _ => .behind := by
  refine .bracketed fun opening => ?_
  refine .bind (.segments assembled_groupingSet) fun sets => ?_
  cases sets with
  | nil => exact .failAt opening rfl
  | cons first others => exact .add _

theorem assembled_groupElement :
    Assembled bound settled .behind (fun rules => groupElement rules) fun _ => .behind := by
  refine .look fun words _ => ?_
  cases groupingFunction? words with
  | some function =>
      exact .bind (assembled_functionSet function).onward fun set => .pure _ (.inr rfl)
  | none => exact .call .column (fun _ => rfl) fun column => .pure _ (.inr rfl)

/-- Gathering the plain columns adds a node and consumes nothing. -/
theorem assembled_addPlainSet (elements : List (Bool × NodeId)) :
    Assembled bound settled .behind (fun _ => addPlainSet elements) fun _ => .behind := by
  simp only [addPlainSet]
  split
  · exact .pure none (.inr rfl)
  · exact .map some (.add _)

/-- What is grouped by is read behind `GROUP BY`. -/
theorem assembled_groupBy :
    Assembled bound settled .start (fun rules => groupBy rules) fun _ => .behind := by
  refine .reads (.expectKeyword .GROUP) fun _ => ?_
  refine .reads (Orderly.expectKeyword .BY).onward fun _ => ?_
  refine .reads (Orderly.eatKeyword .GROUPING).onward fun sets => ?_
  cases sets with
  | true =>
      refine .reads (Orderly.expectKeyword .SETS).onward fun _ => ?_
      exact assembled_groupingSets.onward
  | false =>
      refine .bind (.commaList assembled_groupElement) fun elements => ?_
      exact .bind (assembled_addPlainSet _) fun plainSet => .add _

/-- Without `OFFSET` nothing is consumed; it may be missing only behind other words. -/
theorem assembled_offset :
    Assembled bound settled .behind (fun rules => offset rules) fun _ => .behind := by
  refine .reads (Orderly.eatKeyword .OFFSET).onward fun found => ?_
  cases found with
  | false => exact .pure none (.inr rfl)
  | true =>
      refine .call .column (fun _ => rfl) fun count => ?_
      exact .reads orderly_rowsWord.onward fun _ => .pure (some count) (.inr rfl)

theorem assembled_fetch :
    Assembled bound settled .behind (fun rules => fetch rules) fun _ => .behind := by
  have count : Assembled bound settled .behind (fun rules => do
      let count ← rules.column
      Builder.read rowsWord
      let _ ← Builder.read (expectKeyword .ONLY)
      return some count) fun _ => .behind := by
    refine .call .column (fun _ => rfl) fun count => ?_
    refine .reads orderly_rowsWord.onward fun _ => ?_
    exact .reads (Orderly.expectKeyword .ONLY).onward fun _ => .pure (some count) (.inr rfl)
  refine .reads (Orderly.eatKeyword .FETCH).onward fun found => ?_
  cases found with
  | false => exact .pure none (.inr rfl)
  | true =>
      refine .reads (Orderly.eatKeyword .NEXT).onward fun next => ?_
      cases next with
      | true => exact count
      | false =>
          refine .reads (Orderly.eatKeyword .FIRST).onward fun first => ?_
          cases first with
          | true => exact count
          | false => exact .refuseHere _

/-- Items, offset and fetch are read behind `ORDER BY`. -/
theorem assembled_orderBy :
    Assembled bound settled .start (fun rules => orderBy rules) fun _ => .behind := by
  refine .reads (.expectKeyword .ORDER) fun _ => ?_
  refine .reads (Orderly.expectKeyword .BY).onward fun _ => ?_
  refine .bind (.commaList assembled_orderItem) fun items => ?_
  refine .bind assembled_offset fun offset => ?_
  exact .bind assembled_fetch fun fetch => .add _

/-- Hints are words, to which no rule is applied. -/
theorem assembled_optionHints :
    Assembled bound settled .start (fun _ => optionHints) fun _ => .behind :=
  .leaf orderly_optionHints

/-! ### Statements -/

/-- A modifier that is found has consumed its keyword. -/
theorem assembled_modifier (modifiers : Modifiers) :
    Assembled bound settled .start (fun rules => modifier rules modifiers) Lead.ofFound := by
  refine .reads (.eatKeyword .DISTINCT) fun distinct => ?_
  cases distinct with
  | true => exact .pure (some Modifier.distinct) (.inr rfl)
  | false =>
  refine .reads (.eatKeyword .ALL) fun all => ?_
  cases all with
  | true => exact .pure (some Modifier.all) (.inr rfl)
  | false =>
  cases modifiers.top with
  | some _ => exact .pure none (.inl rfl)
  | none =>
      refine .reads (.check _) fun found => ?_
      cases found with
      | true => exact .bind assembled_top fun top => .pure (some (Modifier.top top)) (.inr rfl)
      | false => exact .pure none (.inl rfl)

/-- By induction on the number of modifiers that are looked for at most. -/
theorem assembled_modifiersUpTo (count : Nat) (modifiers : Modifiers) :
    Assembled bound settled .behind (fun rules => modifiersUpTo rules count modifiers)
      fun _ => .behind := by
  induction count generalizing modifiers with
  | zero => exact .pure modifiers (.inr rfl)
  | succ count ih =>
      refine .bind (assembled_modifier modifiers).onward fun next => ?_
      cases next with
      | none => exact .pure modifiers (.inr rfl)
      | some next => exact ih (modifiers.add next)

theorem assembled_modifiers :
    Assembled bound settled .behind (fun rules => modifiers rules) fun _ => .behind :=
  .look fun words _ => assembled_modifiersUpTo words.length {}

/-- A clause that is announced is read at its keyword, so other words must be behind it already. -/
theorem assembled_clause (keyword : Keyword) {body : Rules → Builder NodeId}
    (assembled : Assembled bound settled .behind body fun _ => .behind) :
    Assembled bound settled .behind (fun rules => clause keyword (body rules))
      fun _ => .behind := by
  refine .reads (.check _) fun found => ?_
  cases found with
  | true => exact .bind assembled fun id => .pure (some id) (.inr rfl)
  | false => exact .pure none (.inr rfl)

/-- The keyword is consumed before what it announces is read. -/
theorem assembled_behind (keyword : Keyword) {body : Rules → Builder NodeId}
    (assembled : Assembled bound settled .behind body fun _ => .behind) :
    Assembled bound settled .behind (fun rules => behind keyword (body rules))
      fun _ => .behind := by
  refine .reads (Orderly.eatKeyword keyword).onward fun found => ?_
  cases found with
  | true => exact .bind assembled fun id => .pure (some id) (.inr rfl)
  | false => exact .pure none (.inr rfl)

/-- The relations are read behind `FROM`. -/
theorem assembled_sources :
    Assembled bound false .behind (fun rules => sources rules) fun _ => .behind := by
  refine .reads (Orderly.eatKeyword .FROM).onward fun found => ?_
  cases found with
  | true =>
      exact .bind (.commaList (.inner .relation nofun)) fun relations => .pure _ (.inr rfl)
  | false => exact .pure [] (.inr rfl)

/-- All clauses of a block stand behind `SELECT`; a filter may turn out not to be a condition. -/
theorem assembled_block (operator : Option SetOperator) :
    Assembled bound false .start (fun rules => block rules operator) fun _ => .behind := by
  have condition : Assembled bound false .behind (fun rules => rules.condition) fun _ => .behind :=
    .inner .condition nofun
  refine .reads (.expectKeyword .SELECT) fun _ => ?_
  refine .bind assembled_modifiers fun modifiers => ?_
  refine .bind (.commaList (assembled_selectColumn (.inner .column nofun))) fun columns => ?_
  refine .bind assembled_sources fun sources => ?_
  refine .bind (assembled_clause .PIVOT assembled_pivot.onward) fun pivot => ?_
  refine .bind (assembled_behind .WHERE condition) fun filter => ?_
  refine .bind (assembled_clause .GROUP assembled_groupBy.onward) fun groupBy => ?_
  exact .bind (assembled_behind .HAVING condition) fun having => .add _

/-- The block is committed to, so it never reports that the words are not a condition. -/
theorem assembled_select :
    Assembled bound settled .start (fun rules => select rules) fun _ => .behind :=
  .committed (assembled_block none)

/-- A set operator that is found is consumed in front of its block. -/
theorem assembled_chainedBlock :
    Assembled bound false .start (fun rules => chainedBlock rules) Lead.ofFound := by
  refine .reads orderly_setOperator fun operator => ?_
  cases operator with
  | none => exact .pure none (.inl rfl)
  | some operator =>
      exact .bind (assembled_block (some operator)).onward fun block => .pure _ (.inr rfl)

/-- The statement of a named subquery stands in its bracket. -/
theorem assembled_cteStatement (name : Identifier) :
    Assembled bound settled .start (fun rules => cteStatement rules name) fun _ => .behind := by
  refine .bracketed fun opening => ?_
  refine .reads .startsStatement fun statement => ?_
  cases statement with
  | true => exact assembled_wholeStatement
  | false => exact .refuseAt opening rfl

/-- A named subquery takes at least its name. -/
theorem assembled_cte :
    Assembled bound settled .start (fun rules => cte rules) fun _ => .behind := by
  have body (name : Identifier) (columns : List Identifier) :
      Assembled bound settled .behind (fun rules => do
        let _ ← Builder.read (expectKeyword .AS)
        let statement ← cteStatement rules name
        Builder.add (.element (.cte name columns (some statement)))) fun _ => .behind := by
    refine .reads (Orderly.expectKeyword .AS).onward fun _ => ?_
    exact .bind (assembled_cteStatement name).onward fun _ => .add _
  refine .reads (.identifier _) fun name => ?_
  refine .reads (.check .leftParen) fun bracket => ?_
  cases bracket with
  | true => exact .reads orderly_columnNames.onward fun columns => body name columns
  | false => exact body name []

/-- Without `WITH` nothing is consumed. -/
theorem assembled_ctes :
    Assembled bound settled .start (fun rules => ctes rules) fun _ => .start := by
  refine .reads (.eatKeyword .WITH) fun found => ?_
  cases found with
  | false => exact .pure [] (.inl rfl)
  | true => exact .bind (.commaList assembled_cte.onward) fun ctes => .pure _ (.inl rfl)

theorem assembled_statementBody :
    Assembled bound false .start (fun rules => statementBody rules) fun _ => .behind := by
  refine .bind assembled_ctes fun ctes => ?_
  refine .bind (assembled_block none) fun first => ?_
  refine .bind (.many assembled_chainedBlock.onward) fun others => ?_
  refine .bind (assembled_clause .ORDER assembled_orderBy.onward) fun orderBy => ?_
  exact .bind (assembled_clause .OPTION assembled_optionHints.onward) fun options => .add _

/-- A statement is committed to, whatever its blocks report. -/
theorem assembled_statement :
    Assembled bound settled .start (fun rules => statement rules) fun _ => .behind :=
  .committed assembled_statementBody

/-! ### All rules -/

/-- Each rule applies the rules inside only behind a consumed word. -/
theorem assembled_around (inner : Inner) :
    Assembled bound inner.isSettled .start (fun rules => rules.around.apply inner)
      fun _ => .behind := by
  cases inner with
  | operand => exact assembled_operand
  | column => exact assembled_column
  | term => exact assembled_term
  | condition => exact assembled_condition
  | relation => exact assembled_relation
  | statement => exact assembled_statement

/-- If the rules inside go forward, so do the rules one level further out. -/
theorem Rules.Orderly.around {rules : Rules} (orderly : rules.Orderly) : rules.around.Orderly := by
  intro inner limits workspace hookless
  have holds : Lead.start.Holds workspace.words.length workspace.words := Nat.le_refl _
  exact ((assembled_around inner).reaches orderly limits workspace hookless holds).proceeds

/-- By induction on the levels, since rules are applied only behind a consumed word. -/
theorem rules_orderly (depth : Nat) : (rules depth).Orderly := by
  induction depth with
  | zero =>
      intro inner limits workspace hookless
      have refuses : Parser.Orderly workspace.words.length .start (exhausted : Parser NodeId)
          fun _ => .start := orderly_exhausted
      cases inner <;> exact (reaches_read refuses hookless (Nat.le_refl _)).proceeds
  | succ depth ih => exact ih.around

end SelectTree.Build
