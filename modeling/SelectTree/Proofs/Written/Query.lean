/-
Module: SelectTree.Proofs.Written.Query
Purpose: the rules for sources of rows, clauses and statements take words that are written as their
  phrases say.
Main exports: Grammar.reads_relation, Grammar.reads_groupBy, Grammar.reads_optionHints,
  Grammar.reads_block, Grammar.reads_statement
-/
import SelectTree.Proofs.Written.Expression

namespace SelectTree

namespace Grammar

open SelectTree.Parser

/-! ### Sources of rows -/

/-- The keyword of a side and what follows it. -/
theorem takes_sideJoin (keyword : Keyword) {type : JoinType} (isSide : Written.joinType type =
      Written.keyword keyword * Written.maybe (Written.keyword .OUTER) * Written.keyword .JOIN)
    {word : Word} (isKeyword : word.kind = .keyword keyword) (rest : Words) :
    Takes 1 (sideJoin type) (word :: rest) Written.joinType := by
  apply (Takes.word (·.kind = .keyword keyword) isKeyword).begin
  intro _ rest
  apply (reads_eatKeyword .OUTER rest).bind
  intro outer rest
  apply (reads_expectKeyword .JOIN rest).bind
  intro _ rest
  apply Takes.pure
  rw [isSide]
  exact mul_le_mul' (mul_le_mul' le_rfl (Written.flagged_le_maybe _ outer)) le_rfl

/-- The keywords of a join say which one it is; an inner one may go without its own. -/
theorem reads_joinType : Reads joinType (Written.optional Written.joinType) := by
  have joins {front : Language Word} {type : JoinType}
      (below : front * Written.keyword .JOIN ≤ Written.joinType type) (words : Words) :
      Takes front (do
        let _ ← expectKeyword .JOIN
        return some type) words (Written.optional Written.joinType) :=
    (reads_expectKeyword .JOIN words).bind fun _ rest => .pure below
  have sideJoins (keyword : Keyword) {type : JoinType} (isSide : Written.joinType type =
        Written.keyword keyword * Written.maybe (Written.keyword .OUTER) * Written.keyword .JOIN)
      {word : Word} (isKeyword : word.kind = .keyword keyword) (rest : Words) :
      Takes 1 (do return some (← sideJoin type)) (word :: rest)
        (Written.optional Written.joinType) :=
    (takes_sideJoin keyword isSide isKeyword rest).begin fun found rest => .pure le_rfl
  intro words
  apply Takes.ahead
  rcases words with _ | ⟨⟨kind, text, glued, index⟩, rest⟩
  · exact .pure le_rfl
  · cases kind with
    | keyword keyword =>
        cases keyword with
        | JOIN =>
            apply (Takes.word (·.kind = .keyword .JOIN) rfl).begin
            intro _ rest
            exact .pure le_sup_left
        | INNER =>
            apply (Takes.word (·.kind = .keyword .INNER) rfl).begin
            intro _ rest
            exact joins le_sup_right rest
        | LEFT => exact sideJoins .LEFT rfl rfl rest
        | RIGHT => exact sideJoins .RIGHT rfl rfl rest
        | FULL => exact sideJoins .FULL rfl rfl rest
        | CROSS =>
            apply (Takes.word (·.kind = .keyword .CROSS) rfl).begin
            intro _ rest
            apply (reads_eatKeyword .APPLY rest).bind
            intro apply' rest
            cases apply' with
            | true => exact .pure le_rfl
            | false =>
                rw [Written.flagged, mul_one]
                exact joins le_rfl rest
        | OUTER =>
            apply Takes.look
            rcases rest with _ | ⟨next, rest⟩
            · exact .pure le_rfl
            · by_cases apply' : next.kind = .keyword .APPLY
              · simp only [List.tail_cons, List.head?_cons, Option.map_some, apply', if_true]
                apply (Takes.twoWords (·.kind = .keyword .OUTER) (·.kind = .keyword .APPLY) rfl
                  apply').begin
                intro _ rest
                exact .pure le_rfl
              · simp only [List.tail_cons, List.head?_cons, Option.map_some, Option.some.injEq,
                  if_neg apply']
                exact .pure le_rfl
        | _ => exact .pure le_rfl
    | _ => exact .pure le_rfl

theorem reads_tablePart :
    Reads tablePart (Written.optional fun part => Written.kind .dot * Written.name part) := by
  intro words
  apply (reads_eat .dot words).begin
  intro dot rest
  cases dot with
  | true => exact (reads_identifier _ rest).bind fun part rest => .pure le_rfl
  | false => exact .pure le_rfl

/-- A table is written as its parts with dots between them, and perhaps an alias. -/
theorem reads_table : Reads table Phrase.written := by
  intro words
  apply Takes.ahead
  cases words with
  | nil => exact .failHere _
  | cons first rest =>
      apply (reads_identifier _ _).begin
      intro name rest
      apply (reads_many reads_tablePart rest).bind
      intro others rest
      rw [Written.list_one_one, ← Written.path_cons]
      by_cases short : (name :: others).length ≤ 3
      · simp only [dif_pos short]
        exact (reads_aliasName false rest).bind fun called rest => .pure le_rfl
      · simp only [dif_neg short]
        exact .failAt _ _

section Inside

variable {rules : Rules} (faithful : rules.Faithful)
include faithful

/-- The relation or the statement fills the bracket. -/
theorem reads_bracketedSource :
    Reads (bracketedSource rules)
      (Sum.elim (fun inner => Written.bracket inner.written)
        fun statement => Written.bracket statement.written) := by
  intro words
  apply Takes.bracketed
  intro opening contents
  apply Spans.look
  cases contents with
  | nil => exact .refuse _
  | cons word rest =>
      apply Spans.startsStatement
      intro starts
      cases starts with
      | true =>
          apply (exhausts_wholeStatement faithful _).begin
          intro statement
          exact .ended (Written.le_inside (one_mul _).le)
      | false =>
          apply (Exhausts.wholly (faithful.relation _)).begin
          intro inner
          exact .ended (Written.le_inside (one_mul _).le)

/-- What is in brackets is written in them, and a subselect with its alias behind them. -/
theorem reads_source : Reads (source rules) Phrase.written := by
  intro words
  apply Takes.checked
  cases words.head?.any (·.kind == .leftParen) with
  | false => exact reads_table words
  | true =>
      apply (reads_bracketedSource faithful words).begin
      intro found rest
      cases found with
      | inl inner => exact .pure le_rfl
      | inr statement =>
          apply (reads_aliasName false rest).bind
          intro called rest
          cases called with
          | none => exact .failHere _
          | some called => exact .pure le_rfl

/-- `ON` and a condition are written exactly where the join requires them. -/
theorem reads_join : Reads (join rules) (Written.optional Phrase.written) := by
  intro words
  apply (reads_joinType words).begin
  intro type rest
  cases type with
  | none => exact .pure le_rfl
  | some type =>
      apply (reads_source faithful rest).bind
      intro source rest
      by_cases requires : type.requiresOn = true
      · simp only [dif_pos requires]
        apply (reads_expectKeyword .ON rest).bind
        intro _ rest
        exact (faithful.condition rest).bind fun condition rest => .pure le_rfl
      · simp only [dif_neg requires]
        exact .pure le_rfl

theorem reads_relation : Reads (relation rules) Phrase.written := by
  intro words
  apply (reads_source faithful words).begin
  intro left rest
  apply (reads_many (reads_join faithful) rest).bind
  intro joins rest
  rw [← Written.written_ofList]
  exact .pure le_rfl

/-! ### Clauses -/

theorem reads_top : Reads (top rules) Phrase.written := by
  have counted (words : Words) (starts : ∀ word ∈ words.head?, startsCount word.kind = true) :
      Takes (Written.keyword .TOP) (do
        let count ← rules.operand
        let percent ← eatKeyword .PERCENT
        let withTies ← eatKeyword .WITH
        if withTies then
          let _ ← expectKeyword .TIES
        return Phrase.top count percent withTies) words Phrase.written := by
    apply (Takes.begun (startsCount · = true) (faithful.operand words) Phrase.written_le_begun
      starts).bind
    intro count rest
    apply (reads_eatKeyword .PERCENT rest).bind
    intro percent rest
    apply (reads_eatKeyword .WITH rest).bind
    intro withTies rest
    cases withTies with
    | true =>
        apply (reads_expectKeyword .TIES rest).bind
        intro _ rest
        exact .pure (mul_assoc _ _ _).le
    | false => exact .pure le_rfl
  intro words
  apply (reads_expectKeyword .TOP words).begin
  intro _ rest
  apply Takes.ahead
  cases starts : rest.head?.any fun word => startsCount word.kind with
  | true =>
      apply counted
      intro word isFirst
      rwa [Option.mem_def.1 isFirst, Option.any_some] at starts
  | false => exact .refuseHere _

/-- A list of at least one column in brackets. -/
theorem takes_values (cause : Cause) (words : Words) :
    Takes 1 (bracketed fun opening => do
        match ← segments rules.column with
        | [] => failAt opening cause
        | first :: others => return (first, others)) words fun columns =>
      Written.bracket (columns.1.written *
        (Phrases.ofList columns.2).written Written.comma Written.comma) := by
  apply Takes.bracketed
  intro _ contents
  apply spans_someColumns faithful (fun _ => .failAt _ _)
  intro first others
  apply Spans.ended
  apply Written.le_inside
  rw [one_mul, one_mul]

/-- The parts of a pivot, in order, fill its bracket. -/
theorem spans_pivotBody (opening : Word) (words : Words) :
    Spans 1 (pivotBody rules opening) words fun parts =>
      parts.1.written * Written.keyword .FOR * parts.2.1.written * Written.keyword .IN *
        Written.bracket (parts.2.2.1.written *
          (Phrases.ofList parts.2.2.2).written Written.comma Written.comma) := by
  apply Spans.look
  cases found : Words.firstKeyword? .FOR words with
  | none => exact .failAt _ _
  | some place =>
      obtain ⟨word, isFor, split⟩ := Words.exists_of_firstKeyword? found
      apply (Learns.within (Exhausts.wholly (faithful.column _)).spans).bind
      intro aggregation isAggregation
      have short : place < words.length := by
        have length := congrArg List.length split
        rw [List.length_append, List.length_cons, List.length_take, List.length_drop] at length
        omega
      have taken : words.take place ++ [word] ∈ aggregation.written * Written.keyword .FOR :=
        Language.append_mem_mul isAggregation (Written.mem_kind isFor)
      rw [List.append_cons] at split
      apply Spans.skip taken split
      · rw [List.length_append, List.length_take, Nat.min_eq_left (Nat.le_of_lt short)]
        rfl
      · intro rest
        rw [one_mul]
        apply Spans.bind (faithful.column rest)
        intro pivotColumn rest
        apply Spans.bind (reads_expectKeyword .IN rest)
        intro _ rest
        apply Spans.bind (takes_values faithful _ rest)
        rintro ⟨first, others⟩ rest
        apply Spans.expectEnd
        exact .ended le_rfl

theorem reads_pivot : Reads (pivot rules) Phrase.written := by
  intro words
  apply (reads_expectKeyword .PIVOT words).begin
  intro _ rest
  have body : Takes 1 (bracketed (pivotBody rules)) rest fun parts =>
      Written.bracket (parts.1.written * Written.keyword .FOR * parts.2.1.written *
        Written.keyword .IN * Written.bracket (parts.2.2.1.written *
          (Phrases.ofList parts.2.2.2).written Written.comma Written.comma)) := by
    apply Takes.bracketed
    intro opening contents
    apply (spans_pivotBody faithful opening contents).last
    intro parts
    rw [one_mul]
    exact Written.le_inside (one_mul _).le
  apply body.bind
  rintro ⟨aggregation, pivotColumn, first, others⟩ rest
  apply (reads_aliasName false rest).bind
  intro called rest
  cases called with
  | none => exact .failHere _
  | some called => exact .pure le_rfl

omit faithful in
/-- A grouping function is announced by its keyword. -/
theorem exists_of_groupingFunction?_eq_some {words : Words} {function : GroupingFunction}
    (found : groupingFunction? words = some function) :
    ∃ word rest, words = word :: rest ∧ [word] ∈ Written.groupingFunction function := by
  rcases words with _ | ⟨⟨kind, text, glued, index⟩, _ | ⟨next, rest⟩⟩
  · cases found
  · cases found
  · refine ⟨_, next :: rest, rfl, ?_⟩
    rw [groupingFunction?] at found
    split at found
    · split at found
      · next isKind =>
          cases found
          exact Written.mem_kind isKind
      · next isKind =>
          cases found
          exact Written.mem_kind isKind
      · cases found
    · cases found

/-- The keyword that was announced is the one that is skipped. -/
theorem takes_functionSet {function : GroupingFunction} {word : Word}
    (announced : [word] ∈ Written.groupingFunction function) (rest : Words) :
    Takes 1 (functionSet rules function) (word :: rest) Phrase.written := by
  apply (Takes.skip announced).begin
  intro _ rest
  apply Takes.bracketed
  intro opening contents
  apply spans_someColumns faithful (fun _ => .failAt _ _)
  intro first others
  apply Spans.ended
  apply Written.le_inside
  rw [one_mul]
  exact le_rfl

theorem reads_groupingSet : Reads (groupingSet rules) Phrase.written := by
  intro words
  apply Takes.look
  cases found : groupingFunction? words with
  | some function =>
      obtain ⟨word, rest, rfl, announced⟩ := exists_of_groupingFunction?_eq_some found
      exact (takes_functionSet faithful announced rest).begin fun set rest => .pure le_rfl
  | none =>
      apply Takes.checked
      cases words.head?.any (·.kind == .leftParen) with
      | true =>
          apply (reads_columnList faithful words).begin
          intro columns rest
          apply Takes.pure
          rw [← Written.written_ofList]
          exact le_sup_left
      | false =>
          apply (faithful.column words).begin
          intro column rest
          apply Takes.pure
          exact le_sup_right

/-- Behind `GROUPING SETS`. -/
theorem takes_groupingSets (words : Words) :
    Takes (Written.keyword .GROUP * Written.keyword .BY * Written.keyword .GROUPING *
      Written.keyword .SETS) (groupingSets rules) words Phrase.written := by
  apply Takes.bracketed
  intro opening contents
  apply (exhausts_segments (reads_groupingSet faithful) contents).begin
  intro sets
  cases sets with
  | nil => exact .failAt _ _
  | cons first others =>
      apply Spans.ended
      apply Written.le_inside
      rw [List.map_cons, Written.list, one_mul, ← Written.written_ofList]
      exact le_rfl

theorem reads_groupElement : Reads (groupElement rules) Phrase.written := by
  intro words
  apply Takes.look
  cases found : groupingFunction? words with
  | some function =>
      obtain ⟨word, rest, rfl, announced⟩ := exists_of_groupingFunction?_eq_some found
      exact (takes_functionSet faithful announced rest).begin fun set rest => .pure le_rfl
  | none => exact (faithful.column words).begin fun column rest => .pure le_rfl

/-- `GROUPING SETS` announces sets in brackets; without it the elements are listed. -/
theorem reads_groupBy : Reads (groupBy rules) Phrase.written := by
  intro words
  apply (reads_expectKeyword .GROUP words).begin
  intro _ rest
  apply (reads_expectKeyword .BY rest).bind
  intro _ rest
  apply (reads_eatKeyword .GROUPING rest).bind
  intro grouping rest
  cases grouping with
  | true =>
      apply (reads_expectKeyword .SETS rest).bind
      intro _ rest
      exact takes_groupingSets faithful rest
  | false =>
      rw [Written.flagged, mul_one]
      apply (reads_commaList (reads_groupElement faithful) rest).bind
      intro elements rest
      apply Takes.pure
      rw [← Written.written_ofList, ← mul_assoc]
      exact le_rfl

omit faithful in
theorem reads_rowsWord : Reads rowsWord fun _ => Written.rowsWord := by
  intro words
  apply (reads_eatKeyword .ROW words).begin
  intro row rest
  cases row with
  | true => exact .pure le_sup_left
  | false =>
      apply (reads_eatKeyword .ROWS rest).begin
      intro rows rest
      cases rows with
      | true => exact .pure le_sup_right
      | false => exact .failHere _

/-- An offset that is missing is not written. -/
theorem reads_offset :
    Reads (offset rules) fun offset =>
      offset.written (Written.keyword .OFFSET) Written.rowsWord := by
  intro words
  apply (reads_eatKeyword .OFFSET words).begin
  intro found rest
  cases found with
  | false => exact .pure le_rfl
  | true =>
      apply (faithful.column rest).bind
      intro count rest
      exact (reads_rowsWord rest).bind fun _ rest => .pure le_rfl

/-- Either keyword may be written in front of the count. -/
theorem reads_fetch :
    Reads (fetch rules) fun fetch =>
      fetch.written (Written.keyword .FETCH * (Written.keyword .NEXT + Written.keyword .FIRST))
        (Written.rowsWord * Written.keyword .ONLY) := by
  have counted {front : Language Word}
      (below : front ≤ Written.keyword .FETCH * (Written.keyword .NEXT + Written.keyword .FIRST))
      (words : Words) :
      Takes front (do
        let count ← rules.column
        rowsWord
        let _ ← expectKeyword .ONLY
        return Perhaps.present count) words fun fetch =>
          fetch.written (Written.keyword .FETCH * (Written.keyword .NEXT + Written.keyword .FIRST))
            (Written.rowsWord * Written.keyword .ONLY) := by
    apply (faithful.column words).bind
    intro count rest
    apply (reads_rowsWord rest).bind
    intro _ rest
    apply (reads_expectKeyword .ONLY rest).bind
    intro _ rest
    apply Takes.pure
    rw [Perhaps.written, mul_assoc]
    exact mul_le_mul' (mul_le_mul' below le_rfl) le_rfl
  intro words
  apply (reads_eatKeyword .FETCH words).begin
  intro found rest
  cases found with
  | false => exact .pure le_rfl
  | true =>
      apply (reads_eatKeyword .NEXT rest).bind
      intro next rest
      cases next with
      | true => exact counted (mul_le_mul' le_rfl le_sup_left) rest
      | false =>
          rw [Written.flagged, Written.flagged, mul_one]
          apply (reads_eatKeyword .FIRST rest).bind
          intro first rest
          cases first with
          | true => exact counted (mul_le_mul' le_rfl le_sup_right) rest
          | false => exact .refuseHere _

/-- Items, offset and fetch are written one behind the other. -/
theorem reads_orderBy : Reads (orderBy rules) Phrase.written := by
  intro words
  apply (reads_expectKeyword .ORDER words).begin
  intro _ rest
  apply (reads_expectKeyword .BY rest).bind
  intro _ rest
  apply (reads_commaList (reads_orderItem faithful) rest).bind
  intro items rest
  apply (reads_offset faithful rest).bind
  intro offset rest
  apply (reads_fetch faithful rest).bind
  intro fetch rest
  apply Takes.pure
  rw [← Written.written_ofList, ← mul_assoc]
  exact le_rfl

end Inside

/-! ### Hints -/

/-- The hints that are kept have the texts that were given. -/
theorem learns_hintTexts (opening : Word) (texts : List String) (words : Words) :
    Learns (hintTexts opening texts) words fun hints => texts = hints.map Verbatim.text := by
  induction texts with
  | nil => exact .pure rfl
  | cons text texts ih =>
      by_cases vacant : text = ""
      · simp only [hintTexts, dif_pos vacant]
        exact .failAt _ _
      · simp only [hintTexts, dif_neg vacant]
        apply ih.seq
        rintro hints rfl
        exact .pure rfl

/-- There is a text for every segment, so without texts there were no words. -/
theorem eq_nil_of_commaTextsUpTo {count : Nat} {words : Words} (enough : words.length ≤ count)
    (none : Words.commaTextsUpTo count words = []) : words = [] := by
  cases words with
  | nil => rfl
  | cons word words =>
      cases count with
      | zero => cases enough
      | succ count => cases none

/-- The words of a comma list are its texts with commas between them and perhaps one behind them. -/
theorem mem_of_commaTextsUpTo {hints : List Verbatim} {count : Nat} {words : Words}
    (balanced : words.Balanced) (enough : words.length ≤ count)
    (texts : Words.commaTextsUpTo count words = hints.map Verbatim.text) :
    words ∈ Written.list 1 Written.comma (hints.map Written.verbatim) *
      Written.maybe Written.comma := by
  induction count generalizing words hints with
  | zero =>
      obtain rfl := List.length_eq_zero_iff.1 (Nat.le_zero.1 enough)
      obtain rfl := List.map_eq_nil_iff.1 texts.symm
      exact Language.append_mem_mul Language.nil_mem_one (.inl Language.nil_mem_one)
  | succ count ih =>
      cases hints with
      | nil =>
          obtain rfl := eq_nil_of_commaTextsUpTo enough texts
          exact Language.append_mem_mul Language.nil_mem_one (.inl Language.nil_mem_one)
      | cons hint hints =>
          obtain ⟨front, isHint, frontBalanced, found⟩ :=
            Words.exists_of_commaTextsUpTo enough texts
          have isFront : front ∈ Written.verbatim hint := ⟨frontBalanced balanced, isHint⟩
          rw [List.map_cons, Written.list, one_mul]
          rcases found with ⟨rfl, others⟩ | ⟨comma, behind, isComma, rfl, fewer, others⟩
          · obtain rfl := List.map_eq_nil_iff.1 others
            rw [List.map_nil, Written.list, mul_one, ← List.append_nil words]
            exact Language.append_mem_mul isFront (.inl Language.nil_mem_one)
          · have plain : Words.isBracket comma.kind = false := by rw [isComma]; rfl
            have behindBalanced := (balanced.of_append (frontBalanced balanced)).of_cons plain
            have isBehind :=
              Language.append_mem_mul (Written.mem_kind isComma) (ih behindBalanced fewer others)
            cases hints with
            | nil =>
                obtain rfl := eq_nil_of_commaTextsUpTo fewer others
                rw [List.map_nil, Written.list, mul_one]
                exact Language.append_mem_mul isFront (.inr (Written.mem_kind isComma))
            | cons next hints =>
                rw [← mul_assoc, List.map_cons, ← Written.list_eq_mul (List.cons_ne_nil _ _)]
                  at isBehind
                rw [mul_assoc]
                exact Language.append_mem_mul isFront isBehind

/-- The texts of the hints are those of the segments of the bracket, but for an empty last one. -/
theorem reads_optionHints : Reads optionHints Phrase.written := by
  intro words
  apply (reads_expectKeyword .OPTION words).begin
  intro _ rest
  apply Takes.bracketedBalanced
  intro opening contents balanced
  apply Spans.look
  apply (learns_hintTexts opening _ contents).bind
  intro hints texts
  cases hints with
  | nil => exact .failAt _ _
  | cons first others =>
      apply Spans.known
      refine Written.mem_of_le (Written.le_inside ?_)
        (mem_of_commaTextsUpTo balanced (Nat.le_refl _) texts)
      rw [List.map_cons, Written.list, one_mul]
      exact le_rfl

/-! ### Statements -/

/-- A clause is written with the keyword that announces it. -/
theorem reads_clause {form : Form} (keyword : Keyword) {body : Parser (Phrase form)}
    (reads : Reads body Phrase.written) :
    Reads (clause keyword body) fun phrase => phrase.written 1 1 := by
  intro words
  apply Takes.checkedKeyword
  intro found
  cases found with
  | true =>
      apply (reads words).begin
      intro phrase rest
      apply Takes.pure
      rw [Perhaps.written, one_mul, mul_one]
  | false => exact .pure le_rfl

/-- The keyword is written in front of what it announces. -/
theorem reads_behind {form : Form} (keyword : Keyword) {body : Parser (Phrase form)}
    (reads : Reads body Phrase.written) :
    Reads (behind keyword body) fun phrase => phrase.written (Written.keyword keyword) 1 := by
  intro words
  apply (reads_eatKeyword keyword words).begin
  intro found rest
  cases found with
  | true =>
      apply (reads rest).bind
      intro phrase rest
      apply Takes.pure
      rw [Perhaps.written, mul_one]
      exact le_rfl
  | false => exact .pure le_rfl

theorem reads_setOperator : Reads setOperator (Written.optional Written.setOperator) := by
  intro words
  apply (reads_eatKeyword .UNION words).begin
  intro union rest
  cases union with
  | true =>
      apply (reads_eatKeyword .ALL rest).bind
      intro all rest
      cases all with
      | true => exact .pure le_rfl
      | false => exact .pure (mul_one _).le
  | false =>
      apply (reads_eatKeyword .INTERSECT rest).begin
      intro intersect rest
      cases intersect with
      | true => exact .pure le_rfl
      | false =>
          apply (reads_eatKeyword .EXCEPT rest).begin
          intro except rest
          cases except with
          | true => exact .pure le_rfl
          | false => exact .pure le_rfl

/-- The names of the columns of a named subquery, which may be missing. -/
theorem reads_columnNames :
    Reads columnNames fun names =>
      if names.isEmpty then 1
      else Written.bracket (Written.list 1 Written.comma (names.map Written.name)) := by
  intro words
  apply Takes.bracketed
  intro opening contents
  apply (exhausts_segments (reads_identifier _) contents).begin
  intro names
  cases names with
  | nil => exact .failAt _ _
  | cons first others => exact .ended (Written.le_inside (one_mul _).le)

/-- The modifiers with one more, which is written so. -/
def Modifier.written : Modifier → Language Word
  | .distinct => Written.keyword .DISTINCT
  | .all => Written.keyword .ALL
  | .top clause => clause.written

/-- The words of some modifiers. -/
def Modifiers.written (modifiers : Modifiers) : Language Word :=
  Written.modifiers (modifiers.top.written 1 1) modifiers.distinct

/-- A distinction behind the modifiers. -/
theorem Modifiers.written_distinction {modifiers : Modifiers} {word : Word} {words : Words}
    (written : words ∈ modifiers.written) (isWord : word.kind = .keyword .DISTINCT ∨
      word.kind = .keyword .ALL) :
    words ++ [word] ∈ Written.modifiers (modifiers.top.written 1 1) (word.isKeyword .DISTINCT) := by
  obtain ⟨before, isBefore, middle, isTop, after, isAfter, -, rfl⟩ := written
  refine ⟨before, isBefore, middle, isTop, after ++ [word], ?_, ?_, List.append_assoc ..⟩
  · intro other member
    rcases List.mem_append.1 member with member | member
    · exact isAfter other member
    · rw [List.mem_singleton.1 member]
      exact isWord
  · rw [Written.endsDistinct, ← List.append_assoc, List.getLast?_concat]
    rfl

/-- A modifier behind the modifiers; there is no `TOP` behind a `TOP`. -/
theorem Modifiers.written_add {modifiers : Modifiers} {next : Modifier}
    (single : ∀ top, next = .top top → modifiers.top = .absent) :
    modifiers.written * next.written ≤ (modifiers.add next).written := by
  rintro _ ⟨words, written, more, isNext, rfl⟩
  cases next with
  | distinct =>
      obtain ⟨word, isWord, rfl⟩ := isNext
      have found := written_distinction written (.inl isWord)
      rwa [Word.isKeyword, isWord] at found
  | all =>
      obtain ⟨word, isWord, rfl⟩ := isNext
      have found := written_distinction written (.inr isWord)
      rwa [Word.isKeyword, isWord] at found
  | top top =>
      obtain ⟨before, isBefore, middle, isTop, after, isAfter, last, rfl⟩ := written
      rw [single top rfl] at isTop
      obtain rfl := (Language.mem_one _).1 isTop
      refine ⟨before ++ after, ?_, more, ?_, [], List.forall_mem_nil _, ?_, ?_⟩
      · intro word member
        exact (List.mem_append.1 member).elim (isBefore word) (isAfter word)
      · rw [Modifiers.add, Perhaps.written, one_mul, mul_one]
        exact isNext
      · rw [List.append_nil]
        exact last
      · simp

section Inside

variable {rules : Rules} (faithful : rules.Faithful)
include faithful

omit faithful in
/-- There is at most one `TOP`. -/
theorem modifier_single {modifiers : Modifiers} {scope : Scope} {words rest : Words}
    {clause : Phrase .top}
    (read : modifier rules modifiers scope words = .ok (some (.top clause), rest)) :
    modifiers.top = .absent := by
  rcases modifiers with ⟨_ | _, distinct⟩
  · rfl
  · obtain ⟨isDistinct, left, -, readAll⟩ := bind_ok_iff.1 read
    cases isDistinct with
    | true => cases readAll
    | false =>
        obtain ⟨isAll, behind, -, readTop⟩ := bind_ok_iff.1 readAll
        cases isAll <;> cases readTop

/-- A modifier is written as its keyword, or as a `TOP`. -/
theorem reads_modifier (modifiers : Modifiers) :
    Reads (modifier rules modifiers) (Written.optional Modifier.written) := by
  intro words
  apply (reads_eatKeyword .DISTINCT words).begin
  intro distinct rest
  cases distinct with
  | true => exact .pure le_rfl
  | false =>
      apply (reads_eatKeyword .ALL rest).begin
      intro all rest
      cases all with
      | true => exact .pure le_rfl
      | false =>
          rcases modifiers with ⟨_ | top, distinct⟩
          · apply Takes.checkedKeyword
            intro found
            cases found with
            | true => exact (reads_top faithful rest).begin fun top rest => .pure le_rfl
            | false => exact .pure le_rfl
          · exact .pure le_rfl

/-- What was written for the modifiers so far stands in front. -/
theorem takes_modifiersUpTo (count : Nat) (modifiers : Modifiers) (words : Words) :
    Takes modifiers.written (modifiersUpTo rules count modifiers) words Modifiers.written := by
  induction count generalizing words modifiers with
  | zero => exact .pure le_rfl
  | succ count ih =>
      apply (reads_modifier faithful modifiers words).bindWith
      intro scope next rest read
      cases next with
      | none => exact .pure (mul_one _).le
      | some next =>
          apply (ih (modifiers.add next) rest).mono
          apply Modifiers.written_add
          rintro clause rfl
          exact modifier_single read

theorem reads_modifiers : Reads (modifiers rules) Modifiers.written := by
  intro words
  apply Takes.look
  apply (takes_modifiersUpTo faithful words.length {} words).mono
  intro _ nothing
  rw [(Language.mem_one _).1 nothing]
  exact ⟨[], nofun, [], Language.nil_mem_one, [], nofun, rfl, rfl⟩

theorem reads_sources :
    Reads (sources rules) fun relations =>
      (Phrases.ofList relations).written (Written.keyword .FROM) Written.comma := by
  intro words
  apply (reads_eatKeyword .FROM words).begin
  intro found rest
  cases found with
  | true =>
      apply (reads_commaList faithful.relation rest).bind
      intro relations rest
      apply Takes.pure
      rw [Written.written_ofList]
      exact (mul_assoc _ _ _).ge
  | false => exact .pure le_rfl

/-- Behind what joins a block to the one before it. -/
theorem takes_block {chained : Bool} (connective : Connective chained) (words : Words) :
    Takes (Written.connective connective) (block rules connective) words Phrase.written := by
  apply (reads_expectKeyword .SELECT words).bind
  intro _ rest
  apply (reads_modifiers faithful rest).bind
  intro modifiers rest
  apply (reads_commaList (reads_selectColumn faithful.column) rest).bind
  rintro ⟨first, others⟩ rest
  apply (reads_sources faithful rest).bind
  intro sources rest
  apply (reads_clause .PIVOT (reads_pivot faithful) rest).bind
  intro pivot rest
  apply (reads_behind .WHERE faithful.condition rest).bind
  intro filter rest
  apply (reads_clause .GROUP (reads_groupBy faithful) rest).bind
  intro groupBy rest
  apply (reads_behind .HAVING faithful.condition rest).bind
  intro having rest
  apply Takes.pure
  rw [← Written.written_ofList, ← mul_assoc]
  exact le_rfl

theorem reads_chainedBlock : Reads (chainedBlock rules) (Written.optional Phrase.written) := by
  intro words
  apply (reads_setOperator words).begin
  intro operator rest
  cases operator with
  | none => exact .pure le_rfl
  | some operator =>
      apply (takes_block faithful (.chained operator) rest).begin
      intro block rest
      exact .pure le_rfl

/-- The statement fills the bracket. -/
theorem reads_cteStatement (name : Identifier) :
    Reads (cteStatement rules name) fun statement => Written.bracket statement.written := by
  intro words
  apply Takes.bracketed
  intro opening contents
  apply Spans.startsStatement
  intro starts
  cases starts with
  | true =>
      apply (exhausts_wholeStatement faithful _).spans.last
      intro statement
      rw [one_mul]
      exact Written.le_inside (one_mul _).le
  | false => exact .refuse _

/-- Names of columns are written only if there are any. -/
theorem reads_cte : Reads (cte rules) Phrase.written := by
  intro words
  apply (reads_identifier _ words).begin
  intro name rest
  have named {front : Language Word} {columns : List Identifier}
      (below : front ≤ Written.name name * (if columns.isEmpty then 1
        else Written.bracket (Written.list 1 Written.comma (columns.map Written.name))))
      (words : Words) :
      Takes front (do
        let _ ← expectKeyword .AS
        return Phrase.cte name columns (← cteStatement rules name)) words Phrase.written := by
    apply (reads_expectKeyword .AS words).bind
    intro _ rest
    apply (reads_cteStatement faithful name rest).bind
    intro statement rest
    exact .pure (mul_le_mul' (mul_le_mul' below le_rfl) le_rfl)
  apply Takes.checked
  cases rest.head?.any (·.kind == .leftParen) with
  | true =>
      apply (reads_columnNames rest).bind
      intro columns rest
      exact named le_rfl rest
  | false => exact named (mul_one _).ge rest

theorem reads_ctes :
    Reads (ctes rules) fun ctes =>
      (Phrases.ofList ctes).written (Written.keyword .WITH) Written.comma := by
  intro words
  apply (reads_eatKeyword .WITH words).begin
  intro found rest
  cases found with
  | true =>
      apply (reads_commaList (reads_cte faithful) rest).bind
      intro ctes rest
      apply Takes.pure
      rw [Written.written_ofList]
      exact (mul_assoc _ _ _).ge
  | false => exact .pure le_rfl

/-- The parts of a statement are written one behind the other. -/
theorem reads_statement : Reads (statement rules) Phrase.written := by
  intro words
  apply Takes.committed
  apply (reads_ctes faithful words).begin
  intro ctes rest
  have firstBlock : Takes 1 (block rules .start) rest Phrase.written :=
    takes_block faithful .start rest
  apply firstBlock.bind
  intro first rest
  apply (reads_many (reads_chainedBlock faithful) rest).bind
  intro others rest
  rw [← Written.written_ofList]
  apply (reads_clause .ORDER (reads_orderBy faithful) rest).bind
  intro orderBy rest
  apply (reads_clause .OPTION reads_optionHints rest).bind
  intro options rest
  exact .pure le_rfl

end Inside

end Grammar

end SelectTree
