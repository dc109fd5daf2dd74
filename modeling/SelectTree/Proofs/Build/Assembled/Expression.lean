/-
Module: SelectTree.Proofs.Build.Assembled.Expression
Purpose: the rules for operands, columns and conditions are put together from the rules inside.
Main exports: Build.assembled_operand, Build.assembled_column, Build.assembled_condition
-/
import SelectTree.Proofs.Build.Assembled

namespace SelectTree.Build

open SelectTree.Parser
open SelectTree.Grammar

variable {bound : Nat} {settled : Bool}

/-! ### Operands -/

theorem assembled_wholeStatement :
    Assembled bound settled .behind (fun rules => rules.wholeStatement) fun _ => .behind :=
  .wholly (.inner .statement fun _ => rfl)

/-- A column that uses up its words. -/
theorem assembled_wholeColumn :
    Assembled bound settled .behind (fun rules => Builder.wholly rules.column) fun _ => .behind :=
  .wholly (.inner .column fun _ => rfl)

/-- Comma segments that are columns. -/
theorem assembled_columns :
    Assembled bound settled .behind (fun rules => Builder.segments rules.column)
      fun _ => .behind :=
  .segments (.inner .column fun _ => rfl)

/-- Columns of which there should be at least one. -/
theorem assembled_someColumns {α : Type} {next : Rules → List NodeId → Builder α}
    {ends : α → Lead} (absent : Assembled bound settled .behind (fun rules => next rules []) ends)
    (present : ∀ first others,
      Assembled bound settled .behind (fun rules => next rules (first :: others)) ends) :
    Assembled bound settled .behind (fun rules => Builder.segments rules.column >>= next rules)
      ends := by
  refine .bind assembled_columns fun columns => ?_
  cases columns with
  | nil => exact absent
  | cons first others => exact present first others

/-- The operand of a negation is read behind the minus sign. -/
theorem assembled_negative :
    Assembled bound settled .behind (fun rules => negative rules) fun _ => .behind := by
  refine .reads .peek fun next => ?_
  split
  · exact .reads (.skip 1 (by decide)) fun _ => .add _
  · exact .reads (.skip 1 (by decide)) fun _ => .add _
  · exact .call .operand (fun _ => rfl) fun _ => .add _

/-- Each column of the list is read on its segment of the bracket. -/
theorem assembled_columnList :
    Assembled bound settled .start (fun rules => columnList rules) fun _ => .behind :=
  .bracketed fun _ => assembled_columns

theorem assembled_functionCall (name : NamePath 2) :
    Assembled bound settled .start (fun rules => functionCall rules name) fun _ => .behind :=
  .bind assembled_columnList fun _ => .add _

/-- `DISTINCT` or `ALL`, if any, is consumed inside the bracket, in front of the columns. -/
theorem assembled_aggregation (name : Word) (function : AggregateFunction) :
    Assembled bound settled .start (fun rules => aggregation rules name function)
      fun _ => .behind := by
  refine .bracketed fun _ => ?_
  refine .reads (Orderly.eatKeyword .DISTINCT).onward fun distinct => ?_
  cases distinct with
  | true => exact assembled_someColumns (.failAt _ rfl) fun _ _ => .add _
  | false =>
      refine .reads (Orderly.eatKeyword .ALL).onward fun _ => ?_
      exact assembled_someColumns (.failAt _ rfl) fun _ _ => .add _

/-- The words of the column must be fewer than the bound, as they are when they were cut off a
bracket. -/
theorem assembled_singleColumn (opening : Word) (label : String) {words : Words}
    (fits : words.length < bound) :
    Assembled bound settled .behind (fun rules => singleColumn rules opening label words)
      fun _ => .behind := by
  have inside : Lead.behind.Holds bound words := fits
  refine .bind (.within inside assembled_columns) fun columns => ?_
  split
  · exact .pure _ (.inr rfl)
  · exact .failAt _ rfl

/-- The sides of the last `AS` are no longer than the words around it. -/
theorem length_le_of_splitAtType {opening : Word} {label : String} {scope : Scope}
    {words rest value type : Words}
    (read : splitAtType opening label scope words = .ok ((value, type), rest)) :
    value.length ≤ words.length ∧ type.length ≤ words.length := by
  obtain ⟨_, _, ⟨⟩, cut⟩ := bind_ok_iff.1 read
  cases found : Words.lastKeyword? .AS words with
  | none =>
      simp only [found] at cut
      cases cut
  | some place =>
      simp only [found] at cut
      cases cut
      exact ⟨(List.take_sublist ..).length_le, (List.drop_sublist ..).length_le⟩

/-- The culture is a part of the words that are cut. -/
theorem length_le_of_splitAtCulture {words type culture : Words}
    (cut : splitAtCulture words = (type, some culture)) : culture.length ≤ words.length := by
  rw [splitAtCulture] at cut
  split at cut
  · cases cut
  · cases cut
    simp

/-- The value is what stands in front of `AS`, so at least one word is left out. -/
theorem assembled_cast (label : String) (lenient : Bool) :
    Assembled bound settled .start (fun rules => cast rules label lenient) fun _ => .behind := by
  refine .bracketed fun opening => ?_
  refine .consult (orderly_splitAtType opening label).onward ?_
  rintro scope words ⟨value, type⟩ rest - holds read
  have fits := Nat.lt_of_le_of_lt (length_le_of_splitAtType read).1 holds
  refine .reads (orderly_typeText opening label _ _).onward fun type => ?_
  exact .bind (assembled_singleColumn opening label fits) fun value => .add _

/-- The arguments are what stands behind the type. -/
theorem assembled_convert (label : String) (lenient : Bool) :
    Assembled bound settled .start (fun rules => convert rules label lenient)
      fun _ => .behind := by
  refine .bracketed fun opening => ?_
  refine .look fun words holds => ?_
  have fits : Lead.behind.Holds bound (Words.textUntilComma words).2 :=
    holds.behind_of_le (Nat.le_trans (Words.length_textUntilComma_le words) (Nat.sub_le ..))
  refine .reads (orderly_typeText opening label _ _).onward fun type => ?_
  refine .bind (.within fits assembled_columns) fun columns => ?_
  split
  · exact .add _
  · exact .add _
  · exact .failAt _ rfl

/-- Value and culture are parts of the contents of the bracket. -/
theorem assembled_parse (label : String) (lenient : Bool) :
    Assembled bound settled .start (fun rules => parse rules label lenient) fun _ => .behind := by
  refine .bracketed fun opening => ?_
  refine .consult (orderly_splitAtType opening label).onward ?_
  rintro scope words ⟨value, target⟩ rest - holds read
  obtain ⟨valueShorter, targetShorter⟩ := length_le_of_splitAtType read
  have fits := Nat.lt_of_le_of_lt valueShorter holds
  rcases cut : splitAtCulture target with ⟨type, culture⟩
  simp only [cut]
  refine .reads (orderly_typeText opening label _ _).onward fun type => ?_
  refine .bind (assembled_singleColumn opening label fits) fun value => ?_
  cases culture with
  | none => exact .add _
  | some culture =>
      have cultureShorter := length_le_of_splitAtCulture cut
      have inside : Lead.behind.Holds bound culture :=
        holds.behind_of_le (Nat.le_trans cultureShorter targetShorter)
      exact .bind (.within inside assembled_wholeColumn) fun culture => .add _

/-- The condition is committed to, so that the call never reports that the words are not one. -/
theorem assembled_iif :
    Assembled bound settled .start (fun rules => iif rules) fun _ => .behind := by
  refine .bracketed fun opening => ?_
  refine .look fun words holds => ?_
  split
  · next condition value otherwise split =>
      have fits (segment : Words) (member : segment ∈ [condition, value, otherwise]) :
          Lead.behind.Holds bound segment :=
        holds.behind_of_le (Words.sublist_of_splitCommas (split ▸ member)).length_le
      have test : Assembled bound settled .behind
          (fun rules => Builder.committed (Builder.wholly rules.condition)) fun _ => .behind :=
        .committed (.wholly (.inner .condition nofun))
      refine .bind (.within (fits condition (by simp)) test) fun condition => ?_
      refine .bind (.within (fits value (by simp)) assembled_wholeColumn) fun value => ?_
      exact .bind (.within (fits otherwise (by simp)) assembled_wholeColumn) fun _ => .add _
  · exact .failAt _ rfl

theorem assembled_specialCall (first : Word) (label : String) (call : SpecialCall) :
    Assembled bound settled .start (fun rules => specialCall rules first label call)
      fun _ => .behind := by
  cases call with
  | cast lenient => exact assembled_cast label lenient
  | convert lenient => exact assembled_convert label lenient
  | parse lenient => exact assembled_parse label lenient
  | iif => exact assembled_iif
  | aggregation function => exact assembled_aggregation first function

/-- What a name begins is read behind the name. -/
theorem assembled_named (first : Word) (name : Identifier) :
    Assembled bound settled .behind (fun rules => named rules first name) fun _ => .behind := by
  refine .reads (Orderly.many orderly_nextPart).onward fun others => ?_
  refine .reads (.check .dot) fun dot => ?_
  cases dot with
  | true => exact .leaf (orderly_tableStar first _).onward
  | false =>
      refine .reads (.check .leftParen) fun bracket => ?_
      cases bracket with
      | false => exact .leaf (orderly_reference first _).onward
      | true =>
          cases specialCall? (name :: others) with
          | some call => exact (assembled_specialCall first _ call).onward
          | none =>
              by_cases short : (name :: others).length ≤ 2
              · simp only [if_true, dif_pos short]
                exact (assembled_functionCall _).onward
              · simp only [if_true, dif_neg short]
                exact .failAt _ rfl

/-- A bracket applies its rules behind the opening bracket. -/
theorem assembled_bracketOperand :
    Assembled bound settled .start (fun rules => bracketOperand rules) fun _ => .behind := by
  have contents : Assembled bound settled .behind (fun rules => do
      if ← Builder.read startsStatement then
        let statement ← rules.wholeStatement
        Builder.add (.column (.subselect (some statement)))
      else
        let inner ← Builder.wholly rules.column
        Builder.add (.column (.bracket (some inner)))) fun _ => .behind := by
    refine .reads .startsStatement fun statement => ?_
    cases statement with
    | true => exact .bind assembled_wholeStatement fun _ => .add _
    | false => exact .bind assembled_wholeColumn fun _ => .add _
  refine .bracketed fun opening => ?_
  refine .look fun words _ => ?_
  cases words.isEmpty with
  | true => exact .refuseAt opening rfl
  | false => exact contents

/-- A branch that is found has consumed `WHEN`, and its condition is committed to. -/
theorem assembled_searchedBranch :
    Assembled bound settled .start (fun rules => searchedBranch rules) Lead.ofFound := by
  refine .reads (.eatKeyword .WHEN) fun branch => ?_
  cases branch with
  | false => exact .pure none (.inl rfl)
  | true =>
      refine .bind (.committed (.inner .condition nofun)) fun condition => ?_
      refine .reads (Orderly.expectKeyword .THEN).onward fun _ => ?_
      refine .call .column (fun _ => rfl) fun result => ?_
      exact .bind (.add _) fun branch => .pure (some branch) (.inr rfl)

theorem assembled_simpleBranch :
    Assembled bound settled .start (fun rules => simpleBranch rules) Lead.ofFound := by
  refine .reads (.eatKeyword .WHEN) fun branch => ?_
  cases branch with
  | false => exact .pure none (.inl rfl)
  | true =>
      refine .call .column (fun _ => rfl) fun value => ?_
      refine .reads (Orderly.expectKeyword .THEN).onward fun _ => ?_
      refine .call .column (fun _ => rfl) fun result => ?_
      exact .bind (.add _) fun branch => .pure (some branch) (.inr rfl)

theorem assembled_caseEnd :
    Assembled bound settled .behind (fun rules => caseEnd rules) fun _ => .behind := by
  have ends (otherwise : Slot) : Assembled bound settled .behind (fun _ => do
      let _ ← Builder.read (expectKeyword .END)
      return otherwise) fun _ => .behind :=
    .reads (Orderly.expectKeyword .END).onward fun _ => .pure otherwise (.inr rfl)
  refine .reads (Orderly.eatKeyword .ELSE).onward fun more => ?_
  cases more with
  | true => exact .bind (.map some (.inner .column fun _ => rfl)) ends
  | false => exact ends none

/-- Branches and end are read behind `CASE`. -/
theorem assembled_caseOperand :
    Assembled bound settled .start (fun rules => caseOperand rules) fun _ => .behind := by
  refine .reads (.expectKeyword .CASE) fun _ => ?_
  refine .reads (.check _) fun searched => ?_
  cases searched with
  | true =>
      refine .bind (.many assembled_searchedBranch.onward) fun branches => ?_
      cases branches with
      | nil => exact .failHere _
      | cons first others => exact .bind assembled_caseEnd fun otherwise => .add _
  | false =>
      refine .call .column (fun _ => rfl) fun operand => ?_
      refine .bind (.many assembled_simpleBranch.onward) fun branches => ?_
      cases branches with
      | nil => exact .failHere _
      | cons first others => exact .bind assembled_caseEnd fun otherwise => .add _

/-- A word is there, which either is a name and is consumed or is complained about. -/
theorem assembled_namedOperand (word : Word) :
    Assembled bound settled .ahead (fun rules => namedOperand rules word) fun _ => .behind := by
  unfold namedOperand
  split
  · next name _ => exact .skipped (assembled_named word name)
  · exact .failHere _

/-- A word is there; a keyword that names a function is consumed like a name. -/
theorem assembled_keywordOperand (word : Word) (keyword : Keyword) :
    Assembled bound settled .ahead (fun rules => keywordOperand rules word keyword)
      fun _ => .behind := by
  refine .look fun words _ => ?_
  by_cases function : keyword.isFunction ∧ (words.tail.head?.map Word.kind) = some .leftParen
  · simp only [if_pos function]
    exact .skipped (assembled_functionCall _).onward
  · simp only [if_neg function]
    exact assembled_namedOperand word

/-- Each kind of first word is consumed before a rule is applied. -/
theorem assembled_plainOperand :
    Assembled bound settled .start (fun rules => plainOperand rules) fun _ => .behind := by
  refine .ahead (.failHere _) fun word => ?_
  dsimp only
  cases constant? word.kind with
  | some value => exact .skipped (.add _)
  | none =>
      dsimp only
      generalize word.kind = kind
      cases kind with
      | keyword keyword =>
          by_cases isCase : keyword = .CASE
          · subst isCase
            exact .nested (.fromStart assembled_caseOperand)
          · by_cases isNull : keyword = .NULL
            · subst isNull
              exact .skipped (.add _)
            · simp only
              exact assembled_keywordOperand word keyword
      | leftBrace => exact .fromStart (.leaf orderly_temporalConstant)
      | minus => exact .skipped (.nested assembled_negative)
      | «variable» name => exact .skipped (.add _)
      | leftParen => exact .fromStart assembled_bracketOperand
      | star => exact .skipped (.add _)
      | _ => exact assembled_namedOperand word

/-- Without hooks, an operand is a plain one. -/
theorem assembled_operand :
    Assembled bound settled .start (fun rules => operand rules) fun _ => .behind := by
  refine .bind (.hooked rfl) fun found => ?_
  cases found with
  | some found => exact .pure found (.inr rfl)
  | none => exact assembled_plainOperand

/-! ### Columns -/

theorem assembled_orderItem :
    Assembled bound settled .behind (fun rules => orderItem rules) fun _ => .behind := by
  refine .call .column (fun _ => rfl) fun column => ?_
  refine .reads orderly_collation.onward fun collation => ?_
  exact .reads orderly_sortDirection.onward fun _ => .add _

/-- A list is read behind its keyword and `BY`, or nothing is. -/
theorem assembled_listBy (keyword : Keyword) {item : Rules → Builder NodeId}
    (assembled : Assembled bound settled .behind item fun _ => .behind) :
    Assembled bound settled .behind (fun rules => listBy keyword (item rules))
      fun _ => .behind := by
  refine .reads (Orderly.eatKeyword keyword).onward fun more => ?_
  cases more with
  | false => exact .pure [] (.inr rfl)
  | true =>
      refine .reads (Orderly.expectKeyword .BY).onward fun _ => ?_
      exact .bind (.commaList assembled) fun items => .pure _ (.inr rfl)

/-- A window is what stands in the bracket behind `OVER`. -/
theorem assembled_window :
    Assembled bound settled .start (fun rules => window rules) fun _ => .behind := by
  refine .reads (.expectKeyword .OVER) fun _ => ?_
  refine .bracketed fun _ => ?_
  refine .bind (assembled_listBy .PARTITION (.inner .column fun _ => rfl)) fun partitionBy => ?_
  refine .bind (assembled_listBy .ORDER assembled_orderItem) fun orderBy => ?_
  refine .reads orderly_frame.onward fun frame => ?_
  exact .reads .expectEnd fun _ => .add _

/-- An operation that is found has consumed its operator. -/
theorem assembled_operation :
    Assembled bound settled .start (fun rules => operation rules) Lead.ofFound := by
  refine .ahead (.pure none (.inl rfl)) fun word => ?_
  rw [Option.bind_some]
  cases arithmeticOperator? word.kind with
  | none => exact .pure none (.inl rfl)
  | some operator =>
      refine .skipped ?_
      refine .bind assembled_operand.onward fun operand => ?_
      exact .bind (.add _) fun operation => .pure (some operation) (.inr rfl)

/-- A run adds at most one node and consumes nothing. -/
theorem assembled_addRun (left : NodeId) (operations : List NodeId) :
    Assembled bound settled .behind (fun _ => addRun left operations) fun _ => .behind := by
  unfold addRun
  split
  · exact .pure left (.inr rfl)
  · exact .add _

/-- Operations and window are looked for behind the first operand. -/
theorem assembled_column :
    Assembled bound settled .start (fun rules => column rules) fun _ => .behind := by
  refine .bind assembled_operand fun left => ?_
  refine .bind (.many assembled_operation.onward) fun operations => ?_
  refine .bind (assembled_addRun left operations) fun run => ?_
  refine .reads (.check _) fun windowed => ?_
  cases windowed with
  | true => exact .bind assembled_window.onward fun window => .add _
  | false => exact .pure run (.inr rfl)

theorem assembled_selectColumn {before : Lead} {column : Rules → Builder NodeId}
    (assembled : Assembled bound settled before column fun _ => .behind) :
    Assembled bound settled before (fun rules => selectColumn (column rules))
      fun _ => .behind := by
  refine .bind assembled fun column => ?_
  refine .reads (Orderly.aliasName true).onward fun called => ?_
  cases called with
  | some called => exact .add _
  | none => exact .pure column (.inr rfl)

/-! ### Conditions -/

theorem assembled_bracketedStatement (label : String) :
    Assembled bound settled .start (fun rules => bracketedStatement rules label)
      fun _ => .behind := by
  refine .bracketed fun opening => ?_
  refine .reads .startsStatement fun statement => ?_
  cases statement with
  | true => exact assembled_wholeStatement
  | false => exact .refuseAt opening rfl

/-- Brackets that cannot hold a condition say so. -/
theorem plain_noCondition (opening : Word) :
    Fault.Plain false { kind := .notACondition, cause := .noCondition, place := some opening } :=
  ⟨rfl, rfl⟩

/-- Brackets that cannot hold a condition report it, so this is not settled. -/
theorem assembled_bracketedCondition :
    Assembled bound false .start (fun rules => bracketedCondition rules) fun _ => .behind := by
  have contents : Assembled bound false .behind (fun rules => do
      let inner ← Builder.wholly rules.condition
      Builder.add (.condition (.bracket (some inner)))) fun _ => .behind :=
    .bind (.wholly (.inner .condition nofun)) fun _ => .add _
  refine .bracketed fun opening => ?_
  refine .look fun words _ => ?_
  refine .reads .startsStatement fun statement => ?_
  cases words.isEmpty || statement with
  | true => exact .bind (.fail (plain_noCondition opening)) fun _ => contents
  | false => exact contents

/-- What `IN` holds is in brackets, and columns are settled. -/
theorem assembled_membership (column : NodeId) (negated : Bool) :
    Assembled bound settled .start (fun rules => membership rules column negated)
      fun _ => .behind := by
  refine .bracketed fun opening => ?_
  refine .reads .startsStatement fun statement => ?_
  cases statement with
  | true => exact .bind assembled_wholeStatement fun _ => .add _
  | false =>
      exact assembled_someColumns (.failAt opening rfl) fun _ _ => .add _

theorem plain_noOperator (words : Words) :
    (Fault.expected .notACondition "a comparison" words).Plain false :=
  ⟨rfl, rfl⟩

/-- Without an operator, the words behind the left side are not a condition. -/
theorem assembled_comparison (left : NodeId) :
    Assembled bound false .behind (fun rules => comparison rules left) fun _ => .behind := by
  refine .reads .peek fun next => ?_
  cases next.bind fun word => orderOperator? word.kind with
  | none => exact .look fun words _ => .fail (plain_noOperator words)
  | some operator =>
      refine .reads (.skip 1 (by decide)) fun _ => ?_
      refine .reads orderly_quantifier.onward fun quantifier => ?_
      cases quantifier with
      | some quantifier =>
          refine .bind (assembled_bracketedStatement _).onward fun statement => ?_
          exact .bind (.add _) fun right => .add _
      | none => exact .call .column nofun fun right => .add _

/-- A predicate takes at least its left side. -/
theorem assembled_predicate :
    Assembled bound false .start (fun rules => predicate rules) fun _ => .behind := by
  refine .bind assembled_column fun left => ?_
  refine .reads orderly_negation.onward fun negated => ?_
  refine .reads (Orderly.eatKeyword .IN).onward fun found => ?_
  cases found with
  | true => exact (assembled_membership left negated).onward
  | false =>
  refine .reads (Orderly.eatKeyword .BETWEEN).onward fun found => ?_
  cases found with
  | true =>
      refine .call .column nofun fun lower => ?_
      refine .reads (Orderly.expectKeyword .AND).onward fun _ => ?_
      exact .call .column nofun fun upper => .add _
  | false =>
  refine .reads (Orderly.eatKeyword .LIKE).onward fun found => ?_
  cases found with
  | true => exact .call .column nofun fun right => .add _
  | false =>
  refine .reads (Orderly.eatKeyword .IS).onward fun found => ?_
  cases found with
  | true =>
      refine .reads (Orderly.eatKeyword .NOT).onward fun absent => ?_
      exact .reads (Orderly.expectKeyword .NULL).onward fun _ => .add _
  | false => exact assembled_comparison left

/-- A bracket is tried as a condition; if it is none, it has consumed nothing, and a predicate is
read from its start. -/
theorem assembled_plainTerm :
    Assembled bound false .start (fun rules => plainTerm rules) fun _ => .behind := by
  refine .reads (.eatKeyword .NOT) fun found => ?_
  cases found with
  | true => exact .bind (.nested (.inner .term nofun)) fun _ => .add _
  | false =>
  refine .reads (.eatKeyword .EXISTS) fun found => ?_
  cases found with
  | true => exact .bind (assembled_bracketedStatement _).onward fun _ => .add _
  | false =>
  refine .reads (.check .leftParen) fun found => ?_
  cases found with
  | false => exact assembled_predicate
  | true =>
      refine .bind (.attempt assembled_bracketedCondition) fun found => ?_
      cases found with
      | some found => exact .pure found (.inr rfl)
      | none => exact assembled_predicate

/-- Without hooks, a term is a plain one. -/
theorem assembled_term :
    Assembled bound false .start (fun rules => term rules) fun _ => .behind := by
  refine .bind (.hooked rfl) fun found => ?_
  cases found with
  | some found => exact .pure found (.inr rfl)
  | none => exact assembled_plainTerm

/-- Behind a connective the term is committed to. -/
theorem assembled_link :
    Assembled bound settled .start (fun rules => link rules) Lead.ofFound := by
  refine .ahead (.pure none (.inl rfl)) fun word => ?_
  rw [Option.bind_some]
  cases logicOperator? word.kind with
  | none => exact .pure none (.inl rfl)
  | some operator =>
      refine .skipped ?_
      refine .bind (.committed assembled_term.onward) fun term => ?_
      exact .bind (.add _) fun link => .pure (some link) (.inr rfl)

/-- A condition takes at least its first term. -/
theorem assembled_condition :
    Assembled bound false .start (fun rules => condition rules) fun _ => .behind := by
  refine .bind assembled_term fun left => ?_
  refine .bind (.many assembled_link.onward) fun links => ?_
  split
  · exact .pure left (.inr rfl)
  · exact .add _

end SelectTree.Build
