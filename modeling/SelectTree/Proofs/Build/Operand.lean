/-
Module: SelectTree.Proofs.Build.Operand
Purpose: the rules for operands add the layouts of what the grammar recognises.
Main exports: Build.Rules.Follow, Build.builds_operand, Build.builds_bracketOperand
-/
import SelectTree.Proofs.Build.Combinator

namespace SelectTree

namespace Build

/-- The rules that occur inside of rules do what the grammar says. -/
structure Rules.Follow (rules : Rules) (grammar : Grammar.Rules) : Prop where
  operand : Builds rules.operand grammar.operand Phrase.layout
  column : Builds rules.column grammar.column Phrase.layout
  term : Builds rules.term grammar.term Phrase.layout
  condition : Builds rules.condition grammar.condition Phrase.layout
  relation : Builds rules.relation grammar.relation Phrase.layout
  statement : Builds rules.statement grammar.statement Phrase.layout

variable {rules : Rules} {grammar : Grammar.Rules} (follow : rules.Follow grammar)

include follow

/-- A statement that nothing may follow adds no more than the statement. -/
theorem builds_wholeStatement :
    Builds rules.wholeStatement grammar.wholeStatement Phrase.layout :=
  follow.statement.wholly

/-- In front of a number the sign is part of it.  In front of anything else it is a node behind
those of the operand. -/
theorem builds_negative : Builds (negative rules) (Grammar.negative grammar) Phrase.layout := by
  apply Builds.phrase
  intro start
  apply Tracks.read
  intro next
  have operand : Tracks start []
      (do
        let operand ← rules.operand
        Builder.add (.column (.negated (some operand))))
      (do return .negated (← grammar.operand)) Phrase.layout := by
    apply Tracks.call follow.operand
    intro operand
    exact .add (by simp [Phrase.layout])
  rcases next.map Word.kind with _ | kind
  · exact operand
  · cases kind with
    | integer value =>
        apply Tracks.read
        intro _
        exact .add (by simp [Phrase.layout])
    | decimal text =>
        apply Tracks.read
        intro _
        exact .add (by simp [Phrase.layout])
    | _ => exact operand

/-- Columns in brackets are added in their order, and the brackets are no node. -/
theorem builds_columnList :
    Builds (columnList rules) (Grammar.columnList grammar) (Layout.each Phrase.layout) where
  contained := Layout.Contained.phrase.each
  tracks := fun start => .bracketed fun _ => follow.column.segments.tracks start

/-- The node of a call is behind those of its arguments. -/
theorem builds_functionCall (name : NamePath 2) :
    Builds (functionCall rules name) (Grammar.functionCall grammar name) Phrase.layout := by
  apply Builds.phrase
  intro start
  apply Tracks.call (builds_columnList follow)
  intro arguments
  exact .add (by simp [Phrase.layout])

/-- What an aggregation does once it is known whether it is `DISTINCT`. -/
theorem tracks_aggregated (name : Word) (function : AggregateFunction) (distinct : Bool)
    (start : Nat) :
    Tracks start []
      (do
        match ← Builder.segments rules.column with
        | [] => Builder.failAt name (.requires function.text "at least one column")
        | first :: others =>
            Builder.add (.column (.aggregation function distinct (slots (first :: others)))))
      (do
        match ← Parser.segments grammar.column with
        | [] => Parser.failAt name (.requires function.text "at least one column")
        | first :: others => return .aggregation function distinct first (.ofList others))
      Phrase.layout := by
  refine .callList follow.column.segments (.failAt _ _) fun first others => ?_
  exact .add (by simp [Phrase.layout, Nat.add_assoc])

/-- An aggregation in brackets.  Of what may stand in front of its columns only `DISTINCT` is kept.
-/
theorem builds_aggregation (name : Word) (function : AggregateFunction) :
    Builds (aggregation rules name function) (Grammar.aggregation grammar name function)
      Phrase.layout := by
  apply Builds.phrase
  intro start
  apply Tracks.bracketed
  intro _
  apply Tracks.read
  intro distinct
  cases distinct with
  | true => exact tracks_aggregated follow name function true start
  | false => exact .read fun _ => tracks_aggregated follow name function false start

/-- Words that must be one column.  All columns are added before there turn out to be too many. -/
theorem builds_singleColumn (opening : Word) (label : String) (words : Words) :
    Builds (singleColumn rules opening label words)
      (Grammar.singleColumn grammar opening label words) Phrase.layout := by
  apply Builds.phrase
  intro start
  apply Tracks.call (follow.column.segments.within words)
  intro columns
  match columns with
  | [] => exact .failAt _ _
  | [column] =>
      simp only [Layout.run_each_cons]
      exact .return' (by simp)
  | first :: second :: others =>
      simp only [Layout.run_each_cons]
      exact .failAt _ _

/-- A type is kept as text, so the value is the only child of a conversion. -/
theorem builds_cast (label : String) (lenient : Bool) :
    Builds (cast rules label lenient) (Grammar.cast grammar label lenient) Phrase.layout := by
  apply Builds.phrase
  intro start
  apply Tracks.bracketed
  intro opening
  refine .read fun (value, type) => ?_
  apply Tracks.read
  intro type
  apply Tracks.call (builds_singleColumn follow opening label value)
  intro value
  exact .add (by simp [Phrase.layout])

/-- The type stands in front here, and one or two columns follow it. -/
theorem builds_convert (label : String) (lenient : Bool) :
    Builds (convert rules label lenient) (Grammar.convert grammar label lenient)
      Phrase.layout := by
  apply Builds.phrase
  intro start
  apply Tracks.bracketed
  intro opening
  apply Tracks.read
  intro words
  apply Tracks.read
  intro type
  apply Tracks.call (follow.column.segments.within _)
  intro columns
  match columns with
  | [] => exact .failAt _ _
  | [value] =>
      simp only [Layout.run_each_cons]
      exact .add (by simp [Phrase.layout, Perhaps.layout])
  | [value, style] =>
      simp only [Layout.run_each_cons]
      exact .add (by simp [Phrase.layout, Perhaps.layout, Nat.add_assoc])
  | first :: second :: third :: others =>
      simp only [Layout.run_each_cons]
      exact .failAt _ _

/-- The culture is read behind the value, from the words behind `USING`, if there are any. -/
theorem builds_parse (label : String) (lenient : Bool) :
    Builds (parse rules label lenient) (Grammar.parse grammar label lenient) Phrase.layout := by
  apply Builds.phrase
  intro start
  apply Tracks.bracketed
  intro opening
  apply Tracks.read
  intro halves
  obtain ⟨value, target⟩ := halves
  dsimp only
  obtain ⟨typeWords, culture⟩ := Grammar.splitAtCulture target
  apply Tracks.read
  intro type
  apply Tracks.call (builds_singleColumn follow opening label value)
  intro value
  cases culture with
  | none => exact .add (by simp [Phrase.layout, Perhaps.layout])
  | some words =>
      apply Tracks.call (follow.column.wholly.within words)
      intro culture
      exact .add (by simp [Phrase.layout, Perhaps.layout, Nat.add_assoc])

/-- The three arguments are parts of the brackets, and each must be a phrase as a whole. -/
theorem builds_iif : Builds (iif rules) (Grammar.iif grammar) Phrase.layout := by
  apply Builds.phrase
  intro start
  apply Tracks.bracketed
  intro opening
  apply Tracks.read
  intro words
  generalize Words.splitCommas words = segments
  match segments with
  | [condition, value, otherwise] =>
      apply Tracks.call (follow.condition.wholly.committed.within condition)
      intro condition
      apply Tracks.call (follow.column.wholly.within value)
      intro value
      apply Tracks.call (follow.column.wholly.within otherwise)
      intro otherwise
      exact .add (by simp [Phrase.layout, Nat.add_assoc])
  | [] | [_] | [_, _] | _ :: _ :: _ :: _ :: _ => exact .failAt _ _

/-- The calls that read more than columns in their brackets, and the aggregations. -/
theorem builds_specialCall (first : Word) (label : String) (call : Grammar.SpecialCall) :
    Builds (specialCall rules first label call) (Grammar.specialCall grammar first label call)
      Phrase.layout := by
  cases call with
  | cast lenient => exact builds_cast follow label lenient
  | convert lenient => exact builds_convert follow label lenient
  | parse lenient => exact builds_parse follow label lenient
  | iif => exact builds_iif follow
  | aggregation function => exact builds_aggregation follow first function

/-- A name is a column, all columns of a table, or a call. -/
theorem builds_named (first : Word) (name : Identifier) :
    Builds (named rules first name) (Grammar.named grammar first name) Phrase.layout := by
  apply Builds.phrase
  intro start
  apply Tracks.read
  intro others
  apply Tracks.read
  intro dot
  split
  · exact .tail (.leaf _)
  · apply Tracks.read
    intro bracket
    split
    · cases Grammar.specialCall? (name :: others) with
      | some call => exact .tail (builds_specialCall follow first _ call)
      | none =>
          dsimp only
          split
          · exact .tail (builds_functionCall follow _)
          · exact .failAt _ _
    · exact .tail (.leaf _)

/-- The contents of a bracket are a statement if they begin like one, else a column. -/
theorem builds_bracketOperand :
    Builds (bracketOperand rules) (Grammar.bracketOperand grammar) Phrase.layout := by
  apply Builds.phrase
  intro start
  apply Tracks.bracketed
  intro opening
  have contents : Tracks start []
      (do
        if ← Builder.read Parser.startsStatement then
          let statement ← rules.wholeStatement
          Builder.add (.column (.subselect (some statement)))
        else
          let inner ← Builder.wholly rules.column
          Builder.add (.column (.bracket (some inner))))
      (do
        if ← Parser.startsStatement then return .subselect (← grammar.wholeStatement)
        return .bracketedColumn (← Parser.wholly grammar.column)) Phrase.layout := by
    apply Tracks.read
    intro statement
    split
    · apply Tracks.call (builds_wholeStatement follow)
      intro statement
      exact .add (by simp [Phrase.layout])
    · apply Tracks.call follow.column.wholly
      intro inner
      exact .add (by simp [Phrase.layout])
  apply Tracks.read
  intro words
  split
  · exact .read fun _ => contents
  · exact contents

/-- A branch with a condition, if there is one more. -/
theorem builds_searchedBranch :
    Builds (searchedBranch rules) (Grammar.searchedBranch grammar)
      (Layout.perhaps Phrase.layout) where
  contained := Layout.Contained.phrase.perhaps
  tracks := by
    intro start
    apply Tracks.read
    intro found
    cases found with
    | false => exact .return' rfl
    | true =>
        apply Tracks.call follow.condition.committed
        intro condition
        apply Tracks.read
        intro _
        apply Tracks.call follow.column
        intro result
        exact .finish (.name (.add _) rfl) (by simp [Phrase.layout, Nat.add_assoc])

/-- A branch with a value to compare with, if there is one more. -/
theorem builds_simpleBranch :
    Builds (simpleBranch rules) (Grammar.simpleBranch grammar)
      (Layout.perhaps Phrase.layout) where
  contained := Layout.Contained.phrase.perhaps
  tracks := by
    intro start
    apply Tracks.read
    intro found
    cases found with
    | false => exact .return' rfl
    | true =>
        apply Tracks.call follow.column
        intro value
        apply Tracks.read
        intro _
        apply Tracks.call follow.column
        intro result
        exact .finish (.name (.add _) rfl) (by simp [Phrase.layout, Nat.add_assoc])

/-- The end of a `CASE`, with or without an `ELSE`. -/
theorem builds_caseEnd :
    Builds (caseEnd rules) (Grammar.caseEnd grammar) Perhaps.layout where
  contained := .perhapsPhrase
  tracks := by
    intro start
    apply Tracks.read
    intro found
    cases found with
    | false =>
        simp only [Bool.false_eq_true, if_false, pure_bind]
        apply Tracks.read
        intro _
        exact .return' (by simp [Perhaps.layout])
    | true =>
        simp only [if_true, map_eq_pure_bind, bind_assoc, pure_bind]
        apply Tracks.call follow.column
        intro otherwise
        apply Tracks.read
        intro _
        exact .return' (by simp [Perhaps.layout])

/-- What is directly behind `CASE` decides which branches it has. -/
theorem builds_caseOperand :
    Builds (caseOperand rules) (Grammar.caseOperand grammar) Phrase.layout := by
  apply Builds.phrase
  intro start
  apply Tracks.read
  intro _
  apply Tracks.read
  intro searched
  cases searched with
  | true =>
      refine .callList ((builds_searchedBranch follow).many .phrase) (.failHere _)
        fun first others => ?_
      apply Tracks.call (builds_caseEnd follow)
      intro otherwise
      exact .add (by simp [Phrase.layout, Nat.add_assoc])
  | false =>
      apply Tracks.call follow.column
      intro operand
      refine .callList ((builds_simpleBranch follow).many .phrase) (.failHere _)
        fun first others => ?_
      apply Tracks.call (builds_caseEnd follow)
      intro otherwise
      exact .add (by simp [Phrase.layout, Nat.add_assoc])

/-- A word that can stand for a name is consumed before it is known what it names. -/
theorem builds_namedOperand (word : Word) :
    Builds (namedOperand rules word) (Grammar.namedOperand grammar word) Phrase.layout := by
  apply Builds.phrase
  intro start
  unfold namedOperand Grammar.namedOperand
  cases word.identifier? with
  | none => exact .failHere _
  | some name =>
      apply Tracks.read
      intro _
      exact .tail (builds_named follow word name)

/-- Some keywords are names of functions in front of a bracket. -/
theorem builds_keywordOperand (word : Word) (keyword : Keyword) :
    Builds (keywordOperand rules word keyword) (Grammar.keywordOperand grammar word keyword)
      Phrase.layout := by
  apply Builds.phrase
  intro start
  apply Tracks.read
  intro words
  dsimp only
  split
  · apply Tracks.read
    intro _
    exact .tail (builds_functionCall follow _)
  · exact .tail (builds_namedOperand follow word)

/-- The first word decides which operand is read. -/
theorem builds_plainOperand :
    Builds (plainOperand rules) (Grammar.plainOperand grammar) Phrase.layout := by
  apply Builds.phrase
  intro start
  apply Tracks.read
  intro next
  cases next with
  | none => exact .failHere _
  | some word =>
      dsimp only
      cases Grammar.constant? word.kind with
      | some value =>
          apply Tracks.read
          intro _
          exact .add (by simp [Phrase.layout])
      | none =>
          dsimp only
          generalize word.kind = kind
          cases kind with
          | keyword keyword =>
              by_cases isCase : keyword = .CASE
              · subst isCase
                exact .tail (builds_caseOperand follow).nested
              · by_cases isNull : keyword = .NULL
                · subst isNull
                  apply Tracks.read
                  intro _
                  exact .add (by simp [Phrase.layout])
                · simp only
                  exact .tail (builds_keywordOperand follow word keyword)
          | leftBrace => exact .tail (.leaf _)
          | minus =>
              apply Tracks.read
              intro _
              exact .tail (builds_negative follow).nested
          | «variable» name =>
              apply Tracks.read
              intro _
              exact .add (by simp [Phrase.layout])
          | leftParen => exact .tail (builds_bracketOperand follow)
          | star =>
              apply Tracks.read
              intro _
              exact .add (by simp [Phrase.layout])
          | _ => exact .tail (builds_namedOperand follow word)

/-- What a hook gives is added like what the rule gives. -/
theorem builds_operand : Builds (operand rules) (Grammar.operand grammar) Phrase.layout := by
  apply Builds.phrase
  intro start
  refine .callOption (.hooked _) (.tail (builds_plainOperand follow)) fun found => ?_
  exact .return' (by simp)

end Build

end SelectTree
