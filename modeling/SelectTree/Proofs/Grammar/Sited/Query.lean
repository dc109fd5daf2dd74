/-
Module: SelectTree.Proofs.Grammar.Sited.Query
Purpose: the rules for sources of rows, clauses and statements complain only about words of the
  source, and with them all rules of the grammar.
Main exports: Grammar.sited_relation, Grammar.sited_statement, Grammar.rules_sited,
  Rule.complaints_sited
-/
import SelectTree.Proofs.Grammar.Sited.Expression

namespace SelectTree

namespace Grammar

open SelectTree.Parser

variable {source : Words}

/-! ### Keywords and names -/

theorem sited_sideJoin (type : JoinType) : Sited source (sideJoin type) := by
  apply Sited.bind (.skip 1)
  intro _
  apply Sited.bind (.eatKeyword .OUTER)
  intro _
  exact .bind (.expectKeyword .JOIN) fun _ => .pure type

/-- A join without its `JOIN` is complained about at the next word. -/
theorem sited_joinType : Sited source joinType := by
  have join (type : JoinType) :
      Sited source (do
        let _ ← expectKeyword .JOIN
        return some type) :=
    .bind (.expectKeyword .JOIN) fun _ => .pure _
  have side (type : JoinType) : Sited source (do return some (← sideJoin type)) :=
    .bind (sited_sideJoin type) fun _ => .pure _
  apply Sited.bind .peek
  intro next
  split
  · exact .bind (.skip 1) fun _ => .pure _
  · exact .bind (.skip 1) fun _ => join .inner
  · exact side .left
  · exact side .right
  · exact side .full
  · apply Sited.bind (.skip 1)
    intro _
    apply Sited.bind (.eatKeyword .APPLY)
    intro apply'
    cases apply' with
    | true => exact .pure _
    | false => exact join .cross
  · apply Sited.look
    intro words _
    split
    · exact .bind (.skip 2) fun _ => .pure _
    · exact .pure none
  · exact .pure none

theorem sited_tablePart : Sited source tablePart := by
  apply Sited.bind (.eat .dot)
  intro dot
  cases dot with
  | true => exact .bind (.identifier _) fun _ => .pure _
  | false => exact .pure none

/-- A name with too many parts is complained about at its first word. -/
theorem sited_table : Sited source table := by
  apply Sited.ahead (.failHere _)
  intro first member
  apply Sited.bind (.identifier _)
  intro name
  apply Sited.bind (.many sited_tablePart)
  intro others
  by_cases short : (name :: others).length ≤ 3
  · simp only [dif_pos short]
    exact .bind (.aliasName false) fun _ => .pure _
  · simp only [dif_neg short]
    exact .failAt member rfl

theorem sited_rowsWord : Sited source rowsWord :=
  .eatOr (.eatOr (.failHere _))

/-- An empty hint is complained about at the opening bracket. -/
theorem sited_hintTexts {opening : Word} (member : opening ∈ source) (texts : List String) :
    Sited source (hintTexts opening texts) := by
  induction texts with
  | nil => exact .pure []
  | cons text texts ih =>
      unfold hintTexts
      split
      · exact .failAt member rfl
      · exact .bind ih fun _ => .pure _

/-- A list without hints is complained about at its opening bracket. -/
theorem sited_optionHints : Sited source optionHints := by
  apply Sited.bind (.expectKeyword .OPTION)
  intro _
  apply Sited.bracketed
  intro opening member
  apply Sited.look
  intro words _
  apply Sited.bind (sited_hintTexts member _)
  intro hints
  cases hints with
  | nil => exact .failAt member rfl
  | cons first others => exact .pure _

theorem sited_setOperator : Sited source setOperator := by
  apply Sited.bind (.eatKeyword .UNION)
  intro union
  cases union with
  | true => exact .eatOr (.pure _)
  | false => exact .eatOr (.eatOr (.pure none))

/-- A list without names is complained about at its opening bracket. -/
theorem sited_columnNames : Sited source columnNames := by
  apply Sited.bracketed
  intro opening member
  apply Sited.bind (.segments (.identifier _))
  intro names
  cases names with
  | nil => exact .failAt member rfl
  | cons first others => exact .pure _

/-- A clause complains where its body does. -/
theorem sited_clause {form : Form} (keyword : Keyword) {body : Parser (Phrase form)}
    (sited : Sited source body) : Sited source (clause keyword body) := by
  apply Sited.bind (.check _)
  intro found
  cases found with
  | true => exact .bind sited fun _ => .pure _
  | false => exact .pure _

/-- What a keyword announces complains as it would elsewhere. -/
theorem sited_behind {form : Form} (keyword : Keyword) {body : Parser (Phrase form)}
    (sited : Sited source body) : Sited source (behind keyword body) := by
  apply Sited.bind (.eatKeyword keyword)
  intro found
  cases found with
  | true => exact .bind sited fun _ => .pure _
  | false => exact .pure _

section Rules

variable {rules : Rules} (sited : rules.Sited source)

include sited

/-! ### Sources of rows -/

/-- Empty brackets are complained about at the opening one. -/
theorem sited_bracketedSource : Sited source (bracketedSource rules) := by
  apply Sited.bracketed
  intro opening member
  have contents : Sited source (do
      if ← startsStatement then return .inr (← rules.wholeStatement)
      return .inl (← wholly rules.relation) : Parser (Sum Relation Statement)) := by
    apply Sited.bind .startsStatement
    intro starts
    cases starts with
    | true => exact .bind (sited_wholeStatement sited) fun _ => .pure _
    | false => exact .bind (.wholly (sited .relation)) fun _ => .pure _
  apply Sited.look
  intro words _
  cases words with
  | nil => exact .bind (.failAt member rfl) fun _ => contents
  | cons word words => exact contents

/-- A missing alias is complained about at the word that stands in its place. -/
theorem sited_source : Sited source (Grammar.source rules) := by
  apply Sited.bind (.check _)
  intro bracket
  cases bracket with
  | false => exact sited_table
  | true =>
      apply Sited.bind (sited_bracketedSource sited)
      intro found
      cases found with
      | inl inner => exact .pure _
      | inr statement =>
          apply Sited.bind (.aliasName false)
          intro called
          cases called with
          | none => exact .failHere _
          | some called => exact .pure _

/-- A join that requires `ON` complains at the word in its place. -/
theorem sited_join : Sited source (join rules) := by
  apply Sited.bind sited_joinType
  intro type
  cases type with
  | none => exact .pure none
  | some type =>
      apply Sited.bind (sited_source sited)
      intro source
      by_cases requires : type.requiresOn = true
      · simp only [dif_pos requires]
        apply Sited.bind (.expectKeyword .ON)
        intro _
        exact .bind (sited .condition) fun _ => .pure _
      · simp only [dif_neg requires]
        exact .pure _

theorem sited_relation : Sited source (relation rules) := by
  apply Sited.bind (sited_source sited)
  intro left
  exact .bind (.many (sited_join sited)) fun _ => .pure _

/-! ### Clauses -/

/-- A missing count is complained about at the next word. -/
theorem sited_top : Sited source (top rules) := by
  have counted : Sited source (do
      let count ← rules.operand
      let percent ← eatKeyword .PERCENT
      let withTies ← eatKeyword .WITH
      if withTies then
        let _ ← expectKeyword .TIES
      return Phrase.top count percent withTies) := by
    apply Sited.bind (sited .operand)
    intro count
    apply Sited.bind (.eatKeyword .PERCENT)
    intro percent
    apply Sited.bind (.eatKeyword .WITH)
    intro withTies
    cases withTies with
    | true => exact .bind (.expectKeyword .TIES) fun _ => .pure _
    | false => exact .pure _
  apply Sited.bind (.expectKeyword .TOP)
  intro _
  apply Sited.bind .peek
  intro next
  split
  · exact .bind (.failHere _) fun _ => counted
  · exact counted

/-- Brackets without `FOR` are complained about at the opening one. -/
theorem sited_pivotBody {opening : Word} (member : opening ∈ source) :
    Sited source (pivotBody rules opening) := by
  apply Sited.look
  intro words part
  cases found : Words.firstKeyword? .FOR words with
  | none => exact .failAt member rfl
  | some place =>
      apply Sited.bind (.within ((Words.PartOf.of_firstKeyword? found).trans part)
        (.wholly (sited .column)))
      intro aggregation
      apply Sited.bind (.skip _)
      intro _
      apply Sited.bind (sited .column)
      intro pivotColumn
      apply Sited.bind (.expectKeyword .IN)
      intro _
      apply Sited.bind
      · apply Sited.bracketed
        intro valuesOpening memberToo
        exact sited_someColumns sited (.failAt memberToo rfl) fun _ _ => .pure _
      · intro values
        exact .bind .expectEnd fun _ => .pure _

/-- A missing alias is complained about at the word behind the brackets. -/
theorem sited_pivot : Sited source (pivot rules) := by
  apply Sited.bind (.expectKeyword .PIVOT)
  intro _
  apply Sited.bind (.bracketed fun _ member => sited_pivotBody sited member)
  intro parts
  apply Sited.bind (.aliasName false)
  intro called
  cases called with
  | none => exact .failHere _
  | some called => exact .pure _

/-- A grouping function without columns is complained about at its opening bracket. -/
theorem sited_functionSet (function : GroupingFunction) :
    Sited source (functionSet rules function) := by
  apply Sited.bind (.skip 1)
  intro _
  apply Sited.bracketed
  intro opening member
  exact sited_someColumns sited (.failAt member rfl) fun _ _ => .pure _

theorem sited_groupingSet : Sited source (groupingSet rules) := by
  apply Sited.look
  intro words _
  split
  · exact .bind (sited_functionSet sited _) fun _ => .pure _
  · apply Sited.bind (.check _)
    intro bracket
    cases bracket with
    | true => exact .bind (sited_columnList sited) fun _ => .pure _
    | false => exact .bind (sited .column) fun _ => .pure _

/-- `GROUPING SETS` without sets is complained about at the opening bracket. -/
theorem sited_groupingSets : Sited source (groupingSets rules) := by
  apply Sited.bracketed
  intro opening member
  apply Sited.bind (.segments (sited_groupingSet sited))
  intro sets
  cases sets with
  | nil => exact .failAt member rfl
  | cons first others => exact .pure _

theorem sited_groupElement : Sited source (groupElement rules) := by
  apply Sited.look
  intro words _
  split
  · exact .bind (sited_functionSet sited _) fun _ => .pure _
  · exact .bind (sited .column) fun _ => .pure _

theorem sited_groupBy : Sited source (groupBy rules) := by
  apply Sited.bind (.expectKeyword .GROUP)
  intro _
  apply Sited.bind (.expectKeyword .BY)
  intro _
  apply Sited.bind (.eatKeyword .GROUPING)
  intro grouping
  cases grouping with
  | true => exact .bind (.expectKeyword .SETS) fun _ => sited_groupingSets sited
  | false => exact .bind (.commaList (sited_groupElement sited)) fun _ => .pure _

theorem sited_offset : Sited source (offset rules) := by
  apply Sited.bind (.eatKeyword .OFFSET)
  intro found
  cases found with
  | false => exact .pure _
  | true =>
      apply Sited.bind (sited .column)
      intro count
      exact .bind sited_rowsWord fun _ => .pure _

/-- `FETCH` needs `NEXT` or `FIRST`, which is complained about at the next word. -/
theorem sited_fetch : Sited source (fetch rules) := by
  have counted : Sited source (do
      let count ← rules.column
      rowsWord
      let _ ← expectKeyword .ONLY
      return Perhaps.present count) := by
    apply Sited.bind (sited .column)
    intro count
    apply Sited.bind sited_rowsWord
    intro _
    exact .bind (.expectKeyword .ONLY) fun _ => .pure _
  apply Sited.bind (.eatKeyword .FETCH)
  intro found
  cases found with
  | false => exact .pure _
  | true =>
      apply Sited.bind (.eatKeyword .NEXT)
      intro next
      cases next with
      | true => exact counted
      | false =>
          apply Sited.bind (.eatKeyword .FIRST)
          intro first
          cases first with
          | true => exact counted
          | false => exact .bind (.failHere _) fun _ => counted

theorem sited_orderBy : Sited source (orderBy rules) := by
  apply Sited.bind (.expectKeyword .ORDER)
  intro _
  apply Sited.bind (.expectKeyword .BY)
  intro _
  apply Sited.bind (.commaList (sited_orderItem sited))
  intro items
  apply Sited.bind (sited_offset sited)
  intro offset
  exact .bind (sited_fetch sited) fun _ => .pure _

/-! ### Statements -/

theorem sited_modifier (modifiers : Modifiers) : Sited source (modifier rules modifiers) := by
  apply Sited.eatOr
  apply Sited.eatOr
  split
  · apply Sited.bind (.check _)
    intro found
    cases found with
    | true => exact .bind (sited_top sited) fun _ => .pure _
    | false => exact .pure none
  · exact .pure none

/-- By induction on the number of modifiers that are looked for at most. -/
theorem sited_modifiersUpTo (count : Nat) (modifiers : Modifiers) :
    Sited source (modifiersUpTo rules count modifiers) := by
  induction count generalizing modifiers with
  | zero => exact .pure modifiers
  | succ count ih =>
      apply Sited.bind (sited_modifier sited modifiers)
      intro next
      cases next with
      | none => exact .pure modifiers
      | some next => exact ih (modifiers.add next)

theorem sited_sources : Sited source (sources rules) := by
  apply Sited.bind (.eatKeyword .FROM)
  intro found
  cases found with
  | true => exact .bind (.commaList (sited .relation)) fun _ => .pure _
  | false => exact .pure []

/-- A block complains where one of its parts does. -/
theorem sited_block {chained : Bool} (connective : Connective chained) :
    Sited source (block rules connective) := by
  apply Sited.bind (.expectKeyword .SELECT)
  intro _
  apply Sited.bind (.look fun words _ => sited_modifiersUpTo sited words.length {})
  intro modifiers
  apply Sited.bind (.commaList (sited_selectColumn (sited .column)))
  intro columns
  apply Sited.bind (sited_sources sited)
  intro sources
  apply Sited.bind (sited_clause .PIVOT (sited_pivot sited))
  intro pivot
  apply Sited.bind (sited_behind .WHERE (sited .condition))
  intro filter
  apply Sited.bind (sited_clause .GROUP (sited_groupBy sited))
  intro groupBy
  apply Sited.bind (sited_behind .HAVING (sited .condition))
  intro having
  exact .pure _

theorem sited_chainedBlock : Sited source (chainedBlock rules) := by
  apply Sited.bind sited_setOperator
  intro operator
  cases operator with
  | none => exact .pure none
  | some operator => exact .bind (sited_block sited _) fun _ => .pure _

/-- Brackets that hold no statement are complained about at the opening one. -/
theorem sited_cteStatement (name : Identifier) : Sited source (cteStatement rules name) :=
  .bracketed fun _ member => sited_demandedStatement sited member rfl

theorem sited_cte : Sited source (cte rules) := by
  apply Sited.bind (.identifier _)
  intro name
  have named (columns : List Identifier) :
      Sited source (do
        let _ ← expectKeyword .AS
        return Phrase.cte name columns (← cteStatement rules name)) := by
    apply Sited.bind (.expectKeyword .AS)
    intro _
    exact .bind (sited_cteStatement sited name) fun _ => .pure _
  apply Sited.bind (.check _)
  intro bracket
  cases bracket with
  | true => exact .bind sited_columnNames named
  | false => exact named []

theorem sited_ctes : Sited source (ctes rules) := by
  apply Sited.bind (.eatKeyword .WITH)
  intro found
  cases found with
  | true => exact .bind (.commaList (sited_cte sited)) fun _ => .pure _
  | false => exact .pure []

/-- Committing to a statement does not change where it complains. -/
theorem sited_statement : Sited source (statement rules) := by
  apply Sited.committed
  apply Sited.bind (sited_ctes sited)
  intro ctes
  apply Sited.bind (sited_block sited .start)
  intro first
  apply Sited.bind (.many (sited_chainedBlock sited))
  intro others
  apply Sited.bind (sited_clause .ORDER (sited_orderBy sited))
  intro orderBy
  exact .bind (sited_clause .OPTION sited_optionHints) fun _ => .pure _

/-! ### All rules -/

/-- If the rules inside complain about words of the source, so do the rules one level further out.
-/
theorem Rules.Sited.around : rules.around.Sited source := by
  intro inner
  cases inner with
  | operand => exact sited_operand sited
  | column => exact sited_column sited
  | term => exact sited_term sited
  | condition => exact sited_condition sited
  | relation => exact sited_relation sited
  | statement => exact sited_statement sited

end Rules

/-- Without a level left, the complaint is about the next word. -/
theorem sited_exhausted {α : Type} : Sited source (exhausted : Parser α) :=
  fun _ _ _ part => .ahead part rfl

/-- Level by level, the rules complain only about words of the source. -/
theorem rules_sited (source : Words) (depth : Nat) : (rules depth).Sited source := by
  induction depth with
  | zero =>
      intro inner
      cases inner <;> exact sited_exhausted
  | succ depth ih => exact ih.around

end Grammar

namespace Rule

open Grammar

/-- Each rule that may be parsed by itself complains about words of the source if the rules inside
do. -/
theorem sited_step (rule : Rule) {source : Words} {rules : Rules} (sited : rules.Sited source) :
    Parser.Sited source (rule.step rules) := by
  cases rule with
  | selectColumn => exact sited_selectColumn (sited_column sited)
  | column => exact sited_column sited
  | operand => exact sited_operand sited
  | bracketOperand => exact sited_bracketOperand sited
  | condition => exact sited_condition sited
  | relation => exact sited_relation sited
  | statement => exact sited_statement sited
  | select => exact .committed (sited_block sited .start)
  | top => exact sited_top sited
  | pivot => exact sited_pivot sited
  | groupBy => exact sited_groupBy sited
  | orderBy => exact sited_orderBy sited
  | orderItem => exact sited_orderItem sited
  | window => exact sited_window sited
  | optionHints => exact sited_optionHints

/-- Every rule complains only about words of the source, and only about brackets that the source
leaves open. -/
theorem complaints_sited (rule : Rule) (source : Words) : Parser.Sited source rule.parser :=
  .look fun words _ => rule.sited_step (rules_sited source (words.length + 1))

end Rule

end SelectTree
