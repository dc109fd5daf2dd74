/-
Module: SelectTree.Proofs.Grammar.Composed.Query
Purpose: the rules for sources of rows, clauses and statements are put together from the rules
  inside, and with them all rules of the grammar.
Main exports: Grammar.composed_relation, Grammar.composed_statement, Grammar.composed_around,
  Rule.composed_step
-/
import SelectTree.Grammar
import SelectTree.Proofs.Grammar.Composed.Expression

namespace SelectTree

namespace Grammar

open SelectTree.Parser

variable (words : Words)

/-! ### Sources of rows -/

/-- Only keywords are consumed. -/
theorem composed_joinType : Composed (fun _ => joinType) words := by
  have joins (type : JoinType) (words : Words) :
      Composed (fun _ => do
        let _ ← expectKeyword .JOIN
        return some type) words :=
    .seq (.expectKeyword .JOIN words) fun _ rest => .pure _ rest
  have sideJoins (type : JoinType) (word : Word) (rest : Words)
      (plain : Words.isBracket word.kind = false) :
      Composed (fun _ => do return some (← sideJoin type)) (word :: rest) := by
    have side : Composed (fun _ => sideJoin type) (word :: rest) := by
      apply Composed.skipped plain
      apply Composed.seq (.eatKeyword .OUTER rest)
      intro _ rest
      exact .seq (.expectKeyword .JOIN rest) fun _ rest => .pure type rest
    exact side.seq fun _ rest => .pure _ rest
  apply Composed.ahead
  rcases words with _ | ⟨⟨kind, text, glued, index⟩, rest⟩
  · exact .pure none []
  · cases kind with
    | keyword keyword =>
        cases keyword with
        | JOIN => exact .skipped rfl (.pure _ rest)
        | INNER => exact .skipped rfl (joins .inner rest)
        | LEFT => exact sideJoins .left _ rest rfl
        | RIGHT => exact sideJoins .right _ rest rfl
        | FULL => exact sideJoins .full _ rest rfl
        | CROSS =>
            apply Composed.skipped rfl
            apply Composed.seq (.eatKeyword .APPLY rest)
            intro apply' rest
            cases apply' with
            | true => exact .pure _ rest
            | false => exact joins .cross rest
        | OUTER =>
            apply Composed.look
            rcases rest with _ | ⟨next, rest⟩
            · exact .pure none _
            · by_cases apply' : next.kind = .keyword .APPLY
              · simp only [List.tail_cons, List.head?_cons, Option.map_some, apply', if_true]
                have plain : Words.isBracket next.kind = false := by rw [apply']; rfl
                exact .seq (.skip 2 (.trans (.word rfl) (.word plain))) fun _ rest => .pure _ rest
              · simp only [List.tail_cons, List.head?_cons, Option.map_some, Option.some.injEq,
                  if_neg apply']
                exact .pure none _
        | _ => exact .pure none _
    | _ => exact .pure none _

theorem composed_tablePart : Composed (fun _ => tablePart) words := by
  apply Composed.seq (.eat rfl words)
  intro dot rest
  cases dot with
  | true => exact .seq (.identifier _ rest) fun _ rest => .pure _ rest
  | false => exact .pure none rest

/-- A table is made of names, dots and an alias. -/
theorem composed_table : Composed (fun _ => table) words := by
  apply Composed.ahead
  cases words with
  | nil => exact .failHere _ []
  | cons first rest =>
      apply Composed.seq (.identifier _ _)
      intro name rest
      apply Composed.seq (.many composed_tablePart rest)
      intro others rest
      by_cases short : (name :: others).length ≤ 3
      · simp only [dif_pos short]
        exact .seq (.aliasName false rest) fun _ rest => .pure _ rest
      · simp only [dif_neg short]
        exact .failAt _ _ rest

/-- The bracket is consumed with the one that closes it. -/
theorem composed_bracketedSource : Composed (fun rules => bracketedSource rules) words := by
  refine .bracketed fun group _ => ?_
  apply Composed.look
  cases group.contents with
  | nil => exact .refuse _
  | cons word rest =>
      apply Composed.seq (.startsStatement _)
      intro starts rest
      cases starts with
      | true => exact (composed_wholeStatement rest).seq fun _ rest => .pure _ rest
      | false => exact (Composed.wholly (.inner .relation rest)).seq fun _ rest => .pure _ rest

theorem composed_source : Composed (fun rules => source rules) words := by
  apply Composed.seq (.check _ words)
  intro bracket rest
  cases bracket with
  | false => exact composed_table rest
  | true =>
      apply Composed.seq (composed_bracketedSource rest)
      intro found rest
      cases found with
      | inl inner => exact .pure _ rest
      | inr statement =>
          apply Composed.seq (.aliasName false rest)
          intro called rest
          cases called with
          | none => exact .failHere _ rest
          | some called => exact .pure _ rest

/-- A join applies the rules of its source and its condition behind keywords. -/
theorem composed_join : Composed (fun rules => join rules) words := by
  apply Composed.seq (composed_joinType words)
  intro type rest
  cases type with
  | none => exact .pure none rest
  | some type =>
      apply Composed.seq (composed_source rest)
      intro source rest
      by_cases requires : type.requiresOn = true
      · simp only [dif_pos requires]
        apply Composed.seq (.expectKeyword .ON rest)
        intro _ rest
        exact .seq (.inner .condition rest) fun _ rest => .pure _ rest
      · simp only [dif_neg requires]
        exact .pure _ rest

theorem composed_relation : Composed (fun rules => relation rules) words := by
  apply Composed.seq (composed_source words)
  intro left rest
  exact (Composed.many composed_join rest).seq fun _ rest => .pure _ rest

/-! ### Clauses -/

/-- `TOP` and its options are keywords around an operand. -/
theorem composed_top : Composed (fun rules => top rules) words := by
  have counted (words : Words) :
      Composed (fun rules => do
        let count ← rules.operand
        let percent ← eatKeyword .PERCENT
        let withTies ← eatKeyword .WITH
        if withTies then
          let _ ← expectKeyword .TIES
        return Phrase.top count percent withTies) words := by
    apply Composed.seq (.inner .operand words)
    intro count rest
    apply Composed.seq (.eatKeyword .PERCENT rest)
    intro percent rest
    apply Composed.seq (.eatKeyword .WITH rest)
    intro withTies rest
    cases withTies with
    | true => exact .seq (.expectKeyword .TIES rest) fun _ rest => .pure _ rest
    | false => exact .pure _ rest
  apply Composed.seq (.expectKeyword .TOP words)
  intro _ rest
  apply Composed.ahead
  cases rest.head?.any fun word => startsCount word.kind with
  | true => exact counted rest
  | false => exact .seq (.failHere _ rest) fun _ rest => counted rest

/-- What is skipped up to `FOR` is balanced because the contents of the bracket are, and `FOR` is
outside of inner brackets. -/
theorem composed_pivotBody (opening : Word) (balanced : words.Balanced) :
    Composed (fun rules => pivotBody rules opening) words := by
  apply Composed.look
  cases found : Words.firstKeyword? .FOR words with
  | none => exact .failAt _ _ words
  | some place =>
      apply Composed.aside (.wholly (.inner .column _))
      intro aggregation
      apply Composed.seq (.skip _ (.of_firstKeyword? balanced found))
      intro _ rest
      apply Composed.seq (.inner .column rest)
      intro pivotColumn rest
      apply Composed.seq (.expectKeyword .IN rest)
      intro _ rest
      refine .seq (.bracketed fun group _ => ?_) fun values rest => ?_
      · exact composed_someColumns group.contents (.failAt _ _) fun _ _ => .pure _
      · exact .seq (.expectEnd rest) fun _ rest => .pure _ rest

theorem composed_pivot : Composed (fun rules => pivot rules) words := by
  apply Composed.seq (.expectKeyword .PIVOT words)
  intro _ rest
  have body : Composed (fun rules => bracketed (pivotBody rules)) rest :=
    .bracketed fun group found =>
      composed_pivotBody group.contents group.opening (Words.exists_of_group? found).2.1
  apply Composed.seq body
  intro parts rest
  apply Composed.seq (.aliasName false rest)
  intro called rest
  cases called with
  | none => exact .failHere _ rest
  | some called => exact .pure _ rest

/-- A grouping function is announced by a keyword. -/
theorem exists_of_groupingFunction? {words : Words} {function : GroupingFunction}
    (found : groupingFunction? words = some function) :
    ∃ word rest, words = word :: rest ∧ Words.isBracket word.kind = false := by
  rcases words with _ | ⟨⟨kind, text, glued, index⟩, rest⟩
  · cases found
  · refine ⟨_, rest, rfl, ?_⟩
    cases kind <;> first | rfl | (cases rest <;> simp [groupingFunction?] at found)

/-- The word in front of the bracket is not a bracket itself, so it may be skipped. -/
theorem composed_functionSet (function : GroupingFunction) {word : Word}
    (plain : Words.isBracket word.kind = false) (rest : Words) :
    Composed (fun rules => functionSet rules function) (word :: rest) := by
  apply Composed.skipped plain
  exact .bracketed fun group _ =>
    composed_someColumns group.contents (.failAt _ _) fun _ _ => .pure _

/-- If a grouping function is announced, its keyword is the next word. -/
theorem composed_groupingSet : Composed (fun rules => groupingSet rules) words := by
  apply Composed.look
  cases found : groupingFunction? words with
  | some function =>
      obtain ⟨word, rest, rfl, plain⟩ := exists_of_groupingFunction? found
      exact (composed_functionSet function plain rest).seq fun _ rest => .pure _ rest
  | none =>
      apply Composed.seq (.check _ words)
      intro bracket rest
      cases bracket with
      | true => exact (composed_columnList rest).seq fun _ rest => .pure _ rest
      | false => exact .seq (.inner .column rest) fun _ rest => .pure _ rest

/-- The sets are the segments of one bracket. -/
theorem composed_groupingSets : Composed (fun rules => groupingSets rules) words := by
  refine .bracketed fun group _ => ?_
  apply Composed.seq (.segments fun segment _ => composed_groupingSet segment)
  intro sets rest
  cases sets with
  | nil => exact .failAt _ _ rest
  | cons first others => exact .pure _ rest

theorem composed_groupElement : Composed (fun rules => groupElement rules) words := by
  apply Composed.look
  cases found : groupingFunction? words with
  | some function =>
      obtain ⟨word, rest, rfl, plain⟩ := exists_of_groupingFunction? found
      exact (composed_functionSet function plain rest).seq fun _ rest => .pure _ rest
  | none => exact .seq (.inner .column words) fun _ rest => .pure _ rest

/-- The elements are read behind `GROUP BY`, one by one or in the bracket of their sets. -/
theorem composed_groupBy : Composed (fun rules => groupBy rules) words := by
  apply Composed.seq (.expectKeyword .GROUP words)
  intro _ rest
  apply Composed.seq (.expectKeyword .BY rest)
  intro _ rest
  apply Composed.seq (.eatKeyword .GROUPING rest)
  intro grouping rest
  cases grouping with
  | true => exact .seq (.expectKeyword .SETS rest) fun _ rest => composed_groupingSets rest
  | false => exact (Composed.commaList composed_groupElement rest).seq fun _ rest => .pure _ rest

theorem composed_rowsWord : Composed (fun _ => rowsWord) words := by
  apply Composed.seq (.eatKeyword .ROW words)
  intro row rest
  cases row with
  | true => exact .pure () rest
  | false =>
      apply Composed.seq (.eatKeyword .ROWS rest)
      intro rows rest
      cases rows with
      | true => exact .pure () rest
      | false => exact .failHere _ rest

/-- Keywords around a column, or nothing. -/
theorem composed_offset : Composed (fun rules => offset rules) words := by
  apply Composed.seq (.eatKeyword .OFFSET words)
  intro found rest
  cases found with
  | false => exact .pure _ rest
  | true =>
      apply Composed.seq (.inner .column rest)
      intro count rest
      exact (composed_rowsWord rest).seq fun _ rest => .pure _ rest

theorem composed_fetch : Composed (fun rules => fetch rules) words := by
  have counted (words : Words) :
      Composed (fun rules => do
        let count ← rules.column
        rowsWord
        let _ ← expectKeyword .ONLY
        return Perhaps.present count) words := by
    apply Composed.seq (.inner .column words)
    intro count rest
    apply Composed.seq (composed_rowsWord rest)
    intro _ rest
    exact .seq (.expectKeyword .ONLY rest) fun _ rest => .pure _ rest
  apply Composed.seq (.eatKeyword .FETCH words)
  intro found rest
  cases found with
  | false => exact .pure _ rest
  | true =>
      apply Composed.seq (.eatKeyword .NEXT rest)
      intro next rest
      cases next with
      | true => exact counted rest
      | false =>
          apply Composed.seq (.eatKeyword .FIRST rest)
          intro first rest
          cases first with
          | true => exact counted rest
          | false => exact .seq (.failHere _ rest) fun _ rest => counted rest

theorem composed_orderBy : Composed (fun rules => orderBy rules) words := by
  apply Composed.seq (.expectKeyword .ORDER words)
  intro _ rest
  apply Composed.seq (.expectKeyword .BY rest)
  intro _ rest
  apply Composed.seq (.commaList composed_orderItem rest)
  intro items rest
  apply Composed.seq (composed_offset rest)
  intro offset rest
  exact (composed_fetch rest).seq fun _ rest => .pure _ rest

/-- Hints are decided by their texts, and no word is consumed. -/
theorem composed_hintTexts (opening : Word) (texts : List String) :
    Composed (fun _ => hintTexts opening texts) words := by
  induction texts generalizing words with
  | nil => exact .pure [] words
  | cons text texts ih =>
      by_cases vacant : text = ""
      · simp only [hintTexts, dif_pos vacant]
        exact .failAt _ _ words
      · simp only [hintTexts, dif_neg vacant]
        exact (ih words).seq fun _ rest => .pure _ rest

/-- The hints are the contents of one bracket, which are looked at and not read. -/
theorem composed_optionHints : Composed (fun _ => optionHints) words := by
  apply Composed.seq (.expectKeyword .OPTION words)
  intro _ rest
  refine .bracketed fun group _ => ?_
  apply Composed.look
  apply Composed.seq (composed_hintTexts _ group.opening _)
  intro hints rest
  cases hints with
  | nil => exact .failAt _ _ rest
  | cons first others => exact .pure _ rest

/-! ### Statements -/

theorem composed_modifier (modifiers : Modifiers) :
    Composed (fun rules => modifier rules modifiers) words := by
  apply Composed.seq (.eatKeyword .DISTINCT words)
  intro distinct rest
  cases distinct with
  | true => exact .pure _ rest
  | false =>
      apply Composed.seq (.eatKeyword .ALL rest)
      intro all rest
      cases all with
      | true => exact .pure _ rest
      | false =>
          rcases modifiers with ⟨_ | top, distinct⟩
          · apply Composed.seq (.check _ rest)
            intro found rest
            cases found with
            | true => exact (composed_top rest).seq fun _ rest => .pure _ rest
            | false => exact .pure none rest
          · exact .pure none rest

/-- By induction on the number of modifiers that are looked for at most. -/
theorem composed_modifiersUpTo (count : Nat) (modifiers : Modifiers) :
    Composed (fun rules => modifiersUpTo rules count modifiers) words := by
  induction count generalizing words modifiers with
  | zero => exact .pure modifiers words
  | succ count ih =>
      apply Composed.seq (composed_modifier words modifiers)
      intro next rest
      cases next with
      | none => exact .pure modifiers rest
      | some next => exact ih rest (modifiers.add next)

/-- A clause is its body, or nothing, as the next word decides. -/
theorem composed_clause {form : Form} (keyword : Keyword) {body : Rules → Parser (Phrase form)}
    (composed : ∀ words, Composed body words) :
    Composed (fun rules => clause keyword (body rules)) words := by
  apply Composed.seq (.check _ words)
  intro found rest
  cases found with
  | true => exact (composed rest).seq fun _ rest => .pure _ rest
  | false => exact .pure _ rest

/-- What a keyword announces is composed behind it as it is anywhere. -/
theorem composed_behind {form : Form} (keyword : Keyword) {body : Rules → Parser (Phrase form)}
    (composed : ∀ words, Composed body words) :
    Composed (fun rules => behind keyword (body rules)) words := by
  apply Composed.seq (.eatKeyword keyword words)
  intro found rest
  cases found with
  | true => exact (composed rest).seq fun _ rest => .pure _ rest
  | false => exact .pure _ rest

theorem composed_sources : Composed (fun rules => sources rules) words := by
  apply Composed.seq (.eatKeyword .FROM words)
  intro found rest
  cases found with
  | true => exact (Composed.commaList (.inner .relation) rest).seq fun _ rest => .pure _ rest
  | false => exact .pure [] rest

/-- A block puts its clauses together one behind the other. -/
theorem composed_block {chained : Bool} (connective : Connective chained) :
    Composed (fun rules => block rules connective) words := by
  apply Composed.seq (.expectKeyword .SELECT words)
  intro _ rest
  apply Composed.seq (.look (composed_modifiersUpTo rest rest.length {}))
  intro modifiers rest
  apply Composed.seq (.commaList (composed_selectColumn · (.inner .column)) rest)
  intro columns rest
  apply Composed.seq (composed_sources rest)
  intro sources rest
  apply Composed.seq (composed_clause rest .PIVOT composed_pivot)
  intro pivot rest
  apply Composed.seq (composed_behind rest .WHERE (.inner .condition))
  intro filter rest
  apply Composed.seq (composed_clause rest .GROUP composed_groupBy)
  intro groupBy rest
  apply Composed.seq (composed_behind rest .HAVING (.inner .condition))
  intro having rest
  exact .pure _ rest

theorem composed_setOperator : Composed (fun _ => setOperator) words := by
  apply Composed.seq (.eatKeyword .UNION words)
  intro union rest
  cases union with
  | true =>
      apply Composed.seq (.eatKeyword .ALL rest)
      intro all rest
      cases all <;> exact .pure _ rest
  | false =>
      apply Composed.seq (.eatKeyword .INTERSECT rest)
      intro intersect rest
      cases intersect with
      | true => exact .pure _ rest
      | false =>
          apply Composed.seq (.eatKeyword .EXCEPT rest)
          intro except rest
          cases except <;> exact .pure _ rest

/-- A set operator is made of keywords. -/
theorem composed_chainedBlock : Composed (fun rules => chainedBlock rules) words := by
  apply Composed.seq (composed_setOperator words)
  intro operator rest
  cases operator with
  | none => exact .pure none rest
  | some operator => exact (composed_block rest _).seq fun _ rest => .pure _ rest

/-- The names are the segments of one bracket. -/
theorem composed_columnNames : Composed (fun _ => columnNames) words := by
  refine .bracketed fun group _ => ?_
  apply Composed.seq (.segments fun segment _ => .identifier _ segment)
  intro names rest
  cases names with
  | nil => exact .failAt _ _ rest
  | cons first others => exact .pure _ rest

/-- The statement is the whole contents of one bracket. -/
theorem composed_cteStatement (name : Identifier) :
    Composed (fun rules => cteStatement rules name) words :=
  .bracketed fun group _ => composed_demandedStatement group.contents _

theorem composed_cte : Composed (fun rules => cte rules) words := by
  apply Composed.seq (.identifier _ words)
  intro name rest
  have named (columns : List Identifier) (words : Words) :
      Composed (fun rules => do
        let _ ← expectKeyword .AS
        return Phrase.cte name columns (← cteStatement rules name)) words := by
    apply Composed.seq (.expectKeyword .AS words)
    intro _ rest
    exact (composed_cteStatement rest name).seq fun _ rest => .pure _ rest
  apply Composed.seq (.check _ rest)
  intro bracket rest
  cases bracket with
  | true => exact (composed_columnNames rest).seq named
  | false => exact named [] rest

/-- `WITH` and a list, or nothing. -/
theorem composed_ctes : Composed (fun rules => ctes rules) words := by
  apply Composed.seq (.eatKeyword .WITH words)
  intro found rest
  cases found with
  | true => exact (Composed.commaList composed_cte rest).seq fun _ rest => .pure _ rest
  | false => exact .pure [] rest

/-- A statement commits to its parts and is put together from them. -/
theorem composed_statement : Composed (fun rules => statement rules) words := by
  apply Composed.committed
  apply Composed.seq (composed_ctes words)
  intro ctes rest
  apply Composed.seq (composed_block rest .start)
  intro first rest
  apply Composed.seq (.many composed_chainedBlock rest)
  intro others rest
  apply Composed.seq (composed_clause rest .ORDER composed_orderBy)
  intro orderBy rest
  apply Composed.seq (composed_clause rest .OPTION composed_optionHints)
  intro options rest
  exact .pure _ rest

/-! ### All rules -/

/-- Each rule that occurs inside of rules is put together from them. -/
theorem composed_around (inner : Inner) :
    Composed (fun rules => rules.around.apply inner) words := by
  cases inner with
  | operand => exact composed_operand words
  | column => exact composed_column words
  | term => exact composed_term words
  | condition => exact composed_condition words
  | relation => exact composed_relation words
  | statement => exact composed_statement words

end Grammar

/-- Each rule that may be applied by itself is put together from the rules inside. -/
theorem Rule.composed_step (rule : Rule) (words : Words) :
    Grammar.Composed (fun rules => rule.step rules) words := by
  cases rule with
  | selectColumn => exact Grammar.composed_selectColumn words Grammar.composed_column
  | column => exact Grammar.composed_column words
  | operand => exact Grammar.composed_operand words
  | bracketOperand => exact Grammar.composed_bracketOperand words
  | condition => exact Grammar.composed_condition words
  | relation => exact Grammar.composed_relation words
  | statement => exact Grammar.composed_statement words
  | select => exact .committed (Grammar.composed_block words .start)
  | top => exact Grammar.composed_top words
  | pivot => exact Grammar.composed_pivot words
  | groupBy => exact Grammar.composed_groupBy words
  | orderBy => exact Grammar.composed_orderBy words
  | orderItem => exact Grammar.composed_orderItem words
  | window => exact Grammar.composed_window words
  | optionHints => exact Grammar.composed_optionHints words

end SelectTree
