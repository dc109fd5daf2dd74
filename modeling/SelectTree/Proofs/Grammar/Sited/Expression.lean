/-
Module: SelectTree.Proofs.Grammar.Sited.Expression
Purpose: the rules for operands, columns and conditions complain only about words of the source.
Main exports: Grammar.Rules.Sited, Grammar.sited_operand, Grammar.sited_column,
  Grammar.sited_condition
-/
import SelectTree.Proofs.Grammar.Sited

namespace SelectTree.Grammar

open SelectTree.Parser

/-- All rules inside complain only about words of the source. -/
def Rules.Sited (source : Words) (rules : Rules) : Prop :=
  ∀ inner : Inner, Parser.Sited source (rules.apply inner)

variable {source : Words}

/-! ### Columns -/

theorem sited_sortDirection : Sited source sortDirection := by
  apply Sited.eatOr
  apply Sited.bind (.eatKeyword .ASC)
  intro _
  exact .pure _

/-- A missing name of a collation is complained of where it should stand. -/
theorem sited_collation : Sited source collation := by
  apply Sited.bind (.eatKeyword .COLLATE)
  intro collated
  cases collated with
  | false => exact .pure none
  | true =>
      apply Sited.bind .peek
      intro next
      split
      · exact .bind (.skip 1) fun _ => .pure _
      · exact .failHere _

/-- A missing side is complained of where it should stand. -/
theorem sited_frameSide : Sited source frameSide :=
  .eatOr (.eatOr (.failHere _))

/-- A count of rows is complained of only if it is negative. -/
theorem sited_frameBound : Sited source frameBound := by
  have side (convert : FrameSide → FrameBound) :
      Sited source (do return convert (← frameSide)) :=
    .bind sited_frameSide fun _ => .pure _
  apply Sited.bind (.eatKeyword .UNBOUNDED)
  intro unbounded
  cases unbounded with
  | true => exact side .unbounded
  | false =>
      apply Sited.bind (.eatKeyword .CURRENT)
      intro current
      cases current with
      | true => exact .bind (.expectKeyword .ROW) fun _ => .pure _
      | false =>
          apply Sited.ahead (.failHere _)
          intro word member
          simp only
          split
          · next count isCount =>
              split
              · next below =>
                  have sited : (Fault.about word .negativeOffset).Sited source :=
                    { place := by
                        rintro _ ⟨⟩
                        exact member
                      unclosed := nofun
                      negative := fun _ => ⟨word, count, rfl, isCount, below⟩ }
                  exact .bind (.fail sited) fun _ => .bind (.skip 1) fun _ => side (.offset count)
              · exact .bind (.skip 1) fun _ => side (.offset count)
          · exact .failHere _

theorem sited_frameUnit : Sited source frameUnit :=
  .eatOr (.eatOr (.pure none))

/-- A frame may be missing; of its bounds each complains for itself. -/
theorem sited_frame : Sited source frame := by
  apply Sited.bind sited_frameUnit
  intro unit
  cases unit with
  | none => exact .pure none
  | some unit =>
      apply Sited.bind (.eatKeyword .BETWEEN)
      intro between
      cases between with
      | false => exact .bind sited_frameBound fun _ => .pure _
      | true =>
          apply Sited.bind sited_frameBound
          intro lower
          apply Sited.bind (.expectKeyword .AND)
          intro _
          exact .bind sited_frameBound fun _ => .pure _

/-- A list behind a keyword and `BY`, if the keyword is there. -/
theorem sited_listBy {α : Type} (keyword : Keyword) {item : Parser α}
    (sited : Sited source item) : Sited source (listBy keyword item) := by
  apply Sited.bind (.eatKeyword keyword)
  intro found
  cases found with
  | false => exact .pure []
  | true =>
      apply Sited.bind (.expectKeyword .BY)
      intro _
      exact .bind (.commaList sited) fun _ => .pure _

theorem sited_selectColumn {column : Parser Column} (sited : Sited source column) :
    Sited source (selectColumn column) := by
  apply Sited.bind sited
  intro column
  exact .bind (.aliasName true) fun _ => .pure _

/-! ### Keywords of conditions -/

/-- A `NOT` is consumed only if the word behind it is one of three keywords. -/
theorem sited_negation : Sited source negation := by
  apply Sited.bind (.check _)
  intro negated
  cases negated with
  | false => exact .pure false
  | true =>
      apply Sited.look
      intro words _
      split
      · exact .bind (.skip 1) fun _ => .pure true
      · exact .bind (.skip 1) fun _ => .pure true
      · exact .bind (.skip 1) fun _ => .pure true
      · exact .pure false

theorem sited_quantifier : Sited source quantifier :=
  .eatOr (.eatOr (.eatOr (.pure none)))

/-! ### Words that are passed on -/

/-- The tag is complained of at the brace, and the text at itself. -/
theorem sited_temporalConstant : Sited source temporalConstant := by
  apply Sited.expected
  intro opening isOpening
  apply Sited.ahead (.failAt isOpening rfl)
  intro tag _
  simp only
  split
  · apply Sited.bind (.skip 1)
    intro _
    apply Sited.ahead (.failHere _)
    intro literal isLiteral
    simp only
    split
    · apply Sited.bind (.skip 1)
      intro _
      split
      · split
        · exact .failAt isLiteral rfl
        · exact .bind (.expect _ _) fun _ => .pure _
      · exact .failAt isOpening rfl
    · exact .failHere _
  · exact .failAt isOpening rfl

/-- A missing type is complained of at the bracket. -/
theorem sited_typeText {opening : Word} (member : opening ∈ source) (label part text : String) :
    Sited source (typeText opening label part text) := by
  unfold typeText
  split
  · exact .failAt member rfl
  · exact .pure _

/-- The same for a missing `AS`. -/
theorem sited_splitAtType {opening : Word} (member : opening ∈ source) (label : String) :
    Sited source (splitAtType opening label) := by
  apply Sited.look
  intro words _
  split
  · exact .failAt member rfl
  · exact .pure _

/-- The value and the type of a conversion are parts of the source. -/
theorem sited_atType {β : Type} {opening : Word} (member : opening ∈ source) (label : String)
    {next : Words × Words → Parser β}
    (goesOn : ∀ value type : Words, value.PartOf source → type.PartOf source →
      Sited source (next (value, type))) :
    Sited source (splitAtType opening label >>= next) := by
  apply Sited.consult (sited_splitAtType member label)
  intro scope words parts rest part read
  obtain ⟨_, _, ⟨⟩, read⟩ := bind_ok_iff.1 read
  cases found : Words.lastKeyword? .AS words <;> simp only [found] at read <;> cases read
  apply goesOn
  · exact (Words.PartOf.of_lastKeyword? found).trans part
  · exact (Words.PartOf.of_suffix (List.drop_suffix _ _)).trans part

/-- Too many parts of a name are complained of at its first word. -/
theorem sited_reference {first : Word} (member : first ∈ source) (parts : List Identifier) :
    Sited source (reference first parts) := by
  unfold reference
  split
  · exact .pure _
  · exact .pure _
  · exact .failAt member rfl

/-- The same for the name in front of a star. -/
theorem sited_tableStar {first : Word} (member : first ∈ source) (parts : List Identifier) :
    Sited source (tableStar first parts) := by
  apply Sited.bind (.skip 2)
  intro _
  split
  · exact .pure _
  · exact .failAt member rfl

/-- A part that is no name is complained of at itself. -/
theorem sited_nextPart : Sited source nextPart := by
  apply Sited.bind (.check .dot)
  intro dot
  cases dot with
  | false => exact .pure none
  | true =>
      apply Sited.look
      intro words part
      split
      · exact .bind (.skip 1) fun _ => .failHere _
      · next next ahead =>
          have member : next ∈ source := by
            apply part.mem
            exact List.mem_of_mem_tail (List.mem_of_mem_head? ahead)
          split
          · exact .pure none
          · split
            · exact .failAt member rfl
            · exact .bind (.skip 2) fun _ => .pure _

/-! ### Operands -/

section Rules

variable {rules : Rules} (sited : rules.Sited source)

include sited

theorem sited_wholeStatement : Sited source rules.wholeStatement :=
  (sited .statement).wholly

theorem sited_orderItem : Sited source (orderItem rules) := by
  apply Sited.bind (sited .column)
  intro column
  apply Sited.bind sited_collation
  intro collation
  exact .bind sited_sortDirection fun _ => .pure _

/-- Nothing may follow the frame in the brackets of a window. -/
theorem sited_window : Sited source (window rules) := by
  apply Sited.bind (.expectKeyword .OVER)
  intro _
  apply Sited.bracketed
  intro opening _
  apply Sited.bind (sited_listBy .PARTITION (sited .column))
  intro partitionBy
  apply Sited.bind (sited_listBy .ORDER (sited_orderItem sited))
  intro orderBy
  apply Sited.bind sited_frame
  intro frame
  exact .bind .expectEnd fun _ => .pure _

theorem sited_negative : Sited source (negative rules) := by
  apply Sited.bind .peek
  intro next
  split
  · exact .bind (.skip 1) fun _ => .pure _
  · exact .bind (.skip 1) fun _ => .pure _
  · exact .bind (sited .operand) fun _ => .pure _

/-- Each segment between commas must be a column as a whole. -/
theorem sited_columnList : Sited source (columnList rules) :=
  .bracketed fun _ _ => .segments (sited .column)

theorem sited_functionCall (name : NamePath 2) : Sited source (functionCall rules name) :=
  .bind (sited_columnList sited) fun _ => .pure _

/-- Rules that ask for at least one item complain about a word of the source. -/
theorem sited_someColumns {β : Type} {next : List Column → Parser β}
    (none : Sited source (next []))
    (some : ∀ first others, Sited source (next (first :: others))) :
    Sited source (segments rules.column >>= next) := by
  apply Sited.bind (.segments (sited .column))
  intro columns
  cases columns with
  | nil => exact none
  | cons first others => exact some first others

/-- Missing columns are complained of at the name of the call. -/
theorem sited_aggregation {name : Word} (member : name ∈ source) (function : AggregateFunction) :
    Sited source (aggregation rules name function) := by
  apply Sited.bracketed
  intro opening _
  apply Sited.bind (.eatKeyword .DISTINCT)
  intro distinct
  cases distinct with
  | true => exact sited_someColumns sited (.failAt member rfl) fun _ _ => .pure _
  | false =>
      apply Sited.bind (.eatKeyword .ALL)
      intro _
      exact sited_someColumns sited (.failAt member rfl) fun _ _ => .pure _

/-- The wrong number of columns is complained of at the bracket. -/
theorem sited_singleColumn {opening : Word} (member : opening ∈ source) (label : String)
    {words : Words} (part : words.PartOf source) :
    Sited source (singleColumn rules opening label words) := by
  apply Sited.bind (.within part (.segments (sited .column)))
  intro columns
  rcases columns with _ | ⟨column, _ | ⟨other, columns⟩⟩
  · exact .failAt member rfl
  · exact .pure column
  · exact .failAt member rfl

/-- The value is in front of the last `AS`, and the type behind it. -/
theorem sited_cast (label : String) (lenient : Bool) :
    Sited source (cast rules label lenient) := by
  apply Sited.bracketed
  intro opening member
  apply sited_atType member
  intro value type isPart _
  apply Sited.bind (sited_typeText member label _ _)
  intro type
  exact .bind (sited_singleColumn sited member label isPart) fun _ => .pure _

/-- The type ends at the first comma, and the columns are behind it. -/
theorem sited_convert (label : String) (lenient : Bool) :
    Sited source (convert rules label lenient) := by
  apply Sited.bracketed
  intro opening member
  apply Sited.look
  intro words part
  have behind : (Words.textUntilComma words).2.PartOf source :=
    (Words.PartOf.of_textUntilComma words).trans part
  apply Sited.bind (sited_typeText member label _ _)
  intro type
  apply Sited.bind (.within behind (.segments (sited .column)))
  intro columns
  rcases columns with _ | ⟨value, _ | ⟨style, _ | ⟨other, columns⟩⟩⟩
  · exact .failAt member rfl
  · exact .pure _
  · exact .pure _
  · exact .failAt member rfl

/-- The type ends at `USING`, and what follows that must be a column as a whole. -/
theorem sited_parse (label : String) (lenient : Bool) :
    Sited source (parse rules label lenient) := by
  apply Sited.bracketed
  intro opening member
  apply sited_atType member
  intro value target isPart isTarget
  apply Sited.bind (sited_typeText member label _ _)
  intro type
  apply Sited.bind (sited_singleColumn sited member label isPart)
  intro value
  cases Words.firstKeyword? .USING target with
  | none => exact .pure _
  | some place =>
      have culture : Words.PartOf (target.drop (place + 1)) source :=
        (Words.PartOf.of_suffix (List.drop_suffix _ _)).trans isTarget
      exact .bind (.within culture (.wholly (sited .column))) fun _ => .pure _

/-- The wrong number of arguments is complained of at the bracket. -/
theorem sited_iif : Sited source (iif rules) := by
  apply Sited.bracketed
  intro opening member
  apply Sited.look
  intro words part
  have segment {range : Words} (inside : range ∈ Words.splitCommas words) :
      range.PartOf source := (Words.PartOf.of_splitCommas inside).trans part
  split
  · next condition value otherwise split =>
      rw [split] at segment
      apply Sited.bind (.within (segment (by simp)) (.committed (.wholly (sited .condition))))
      intro _
      apply Sited.bind (.within (segment (by simp)) (.wholly (sited .column)))
      intro _
      apply Sited.bind (.within (segment (by simp)) (.wholly (sited .column)))
      intro _
      exact .pure _
  · exact .failAt member rfl

/-- Each special call complains for itself. -/
theorem sited_specialCall {first : Word} (member : first ∈ source) (label : String)
    (call : SpecialCall) : Sited source (specialCall rules first label call) := by
  cases call with
  | cast lenient => exact sited_cast sited label lenient
  | convert lenient => exact sited_convert sited label lenient
  | parse lenient => exact sited_parse sited label lenient
  | iif => exact sited_iif sited
  | aggregation function => exact sited_aggregation sited member function

/-- What follows the last part of a name decides what it is. -/
theorem sited_named {first : Word} (member : first ∈ source) (name : Identifier) :
    Sited source (named rules first name) := by
  apply Sited.bind (.many sited_nextPart)
  intro others
  apply Sited.bind (.check .dot)
  intro dot
  cases dot with
  | true => exact sited_tableStar member _
  | false =>
      apply Sited.bind (.check .leftParen)
      intro bracket
      cases bracket with
      | false => exact sited_reference member _
      | true =>
          simp only [if_true]
          split
          · exact sited_specialCall sited member _ _
          · split
            · exact sited_functionCall sited _
            · exact .failAt member rfl

/-- Empty brackets are complained of at the opening one. -/
theorem sited_bracketOperand : Sited source (bracketOperand rules) := by
  apply Sited.bracketed
  intro opening member
  have contents : Sited source (do
      if ← startsStatement then return .subselect (← rules.wholeStatement)
      return .bracketedColumn (← wholly rules.column) : Parser Operand) := by
    apply Sited.bind .startsStatement
    intro starts
    cases starts with
    | true => exact .bind (sited_wholeStatement sited) fun _ => .pure _
    | false => exact .bind (.wholly (sited .column)) fun _ => .pure _
  apply Sited.look
  intro words _
  cases words with
  | nil => exact .bind (.failAt member rfl) fun _ => contents
  | cons word words => exact contents

/-- A branch is not begun without `WHEN`. -/
theorem sited_searchedBranch : Sited source (searchedBranch rules) := by
  apply Sited.bind (.eatKeyword .WHEN)
  intro found
  cases found with
  | false => exact .pure none
  | true =>
      apply Sited.bind (.committed (sited .condition))
      intro condition
      apply Sited.bind (.expectKeyword .THEN)
      intro _
      exact .bind (sited .column) fun _ => .pure _

/-- The same for a branch with a value. -/
theorem sited_simpleBranch : Sited source (simpleBranch rules) := by
  apply Sited.bind (.eatKeyword .WHEN)
  intro found
  cases found with
  | false => exact .pure none
  | true =>
      apply Sited.bind (sited .column)
      intro value
      apply Sited.bind (.expectKeyword .THEN)
      intro _
      exact .bind (sited .column) fun _ => .pure _

/-- A missing `END` is complained of where it should stand. -/
theorem sited_caseEnd : Sited source (caseEnd rules) := by
  have ended (otherwise : Perhaps .column) :
      Sited source (do
        let _ ← expectKeyword .END
        return otherwise) :=
    .bind (.expectKeyword .END) fun _ => .pure otherwise
  apply Sited.bind (.eatKeyword .ELSE)
  intro found
  cases found with
  | false => exact ended .absent
  | true =>
      have otherwise : Sited source (Perhaps.present <$> rules.column) :=
        .bind (sited .column) fun _ => .pure _
      exact otherwise.bind ended

/-- A `CASE` without branches is complained of where one should stand. -/
theorem sited_caseOperand : Sited source (caseOperand rules) := by
  apply Sited.bind (.expectKeyword .CASE)
  intro _
  apply Sited.bind (.check _)
  intro searched
  cases searched with
  | true =>
      apply Sited.bind (.many (sited_searchedBranch sited))
      intro branches
      cases branches with
      | nil => exact .failHere _
      | cons first others => exact .bind (sited_caseEnd sited) fun _ => .pure _
  | false =>
      apply Sited.bind (sited .column)
      intro operand
      apply Sited.bind (.many (sited_simpleBranch sited))
      intro branches
      cases branches with
      | nil => exact .failHere _
      | cons first others => exact .bind (sited_caseEnd sited) fun _ => .pure _

/-- A word that stands for no name is complained of at itself. -/
theorem sited_namedOperand {word : Word} (member : word ∈ source) :
    Sited source (namedOperand rules word) := by
  unfold namedOperand
  split
  · exact .bind (.skip 1) fun _ => sited_named sited member _
  · exact .failHere _

/-- A keyword is the name of a function or is read as a name. -/
theorem sited_keywordOperand {word : Word} (member : word ∈ source) (keyword : Keyword) :
    Sited source (keywordOperand rules word keyword) := by
  apply Sited.look
  intro words _
  simp only
  split
  · exact .bind (.skip 1) fun _ => sited_functionCall sited _
  · exact sited_namedOperand sited member

/-- The end of the words is complained of where an operand should stand. -/
theorem sited_plainOperand : Sited source (plainOperand rules) := by
  apply Sited.ahead (.failHere _)
  intro word member
  simp only
  split
  · exact .bind (.skip 1) fun _ => .pure _
  · split
    · exact sited_temporalConstant
    · exact .bind (.skip 1) fun _ => .nested (sited_negative sited)
    · exact .bind (.skip 1) fun _ => .pure _
    · exact .nested (sited_caseOperand sited)
    · exact .bind (.skip 1) fun _ => .pure _
    · exact sited_keywordOperand sited member _
    · exact sited_bracketOperand sited
    · exact .bind (.skip 1) fun _ => .pure _
    · exact sited_namedOperand sited member

/-- Without hooks only the rule itself is left. -/
theorem sited_operand : Sited source (operand rules) := by
  apply Sited.bind (.hooked rfl)
  intro found
  cases found with
  | none => exact sited_plainOperand sited
  | some operand => exact .pure operand

/-- Operations go on as long as there is an operator. -/
theorem sited_operation : Sited source (operation rules) := by
  apply Sited.bind .peek
  intro next
  split
  · exact .pure none
  · apply Sited.bind (.skip 1)
    intro _
    exact .bind (sited_operand sited) fun _ => .pure _

/-- Behind its operations a column may have a window. -/
theorem sited_column : Sited source (column rules) := by
  apply Sited.bind (sited_operand sited)
  intro left
  apply Sited.bind (.many (sited_operation sited))
  intro operations
  apply Sited.bind (.check _)
  intro windowed
  cases windowed with
  | false => exact .pure _
  | true =>
      have window : Sited source (Perhaps.present <$> window rules) :=
        .bind (sited_window sited) fun _ => .pure _
      exact window.bind fun _ => .pure _

/-! ### Conditions -/

/-- The contents of a bracket, which must be a statement. -/
theorem sited_demandedStatement {opening : Word} (member : opening ∈ source) {cause : Cause}
    (plain : cause.isPlain = true) :
    Sited source (do
      if !(← startsStatement) then Parser.failAt opening cause
      rules.wholeStatement) := by
  apply Sited.bind .startsStatement
  intro starts
  cases starts with
  | true => exact sited_wholeStatement sited
  | false => exact .bind (.failAt member plain) fun _ => sited_wholeStatement sited

/-- Brackets that must hold a statement complain at the opening one. -/
theorem sited_bracketedStatement (label : String) :
    Sited source (bracketedStatement rules label) :=
  .bracketed fun _ member => sited_demandedStatement sited member rfl

/-- Brackets that begin no condition complain so at the opening one. -/
theorem sited_bracketedCondition : Sited source (bracketedCondition rules) := by
  apply Sited.bracketed
  intro opening member
  have contents : Sited source (do
      return .bracketedCondition (← wholly rules.condition) : Parser Term) :=
    .bind (.wholly (sited .condition)) fun _ => .pure _
  have vacant : Fault.Sited source
      { kind := .notACondition, cause := .noCondition, place := some opening } := by
    refine .of_isPlain ?_ rfl
    rintro _ ⟨⟩
    exact member
  apply Sited.look
  intro words _
  apply Sited.bind .startsStatement
  intro starts
  split
  · exact .bind (.fail vacant) fun _ => contents
  · exact contents

/-- An empty list is complained of at the opening bracket. -/
theorem sited_membership (left : Column) (negated : Bool) :
    Sited source (membership rules left negated) := by
  apply Sited.bracketed
  intro opening member
  apply Sited.bind .startsStatement
  intro starts
  cases starts with
  | true => exact .bind (sited_wholeStatement sited) fun _ => .pure _
  | false => exact sited_someColumns sited (.failAt member rfl) fun _ _ => .pure _

/-- A column without a comparison is complained of where one should stand. -/
theorem sited_comparison (left : Column) : Sited source (comparison rules left) := by
  apply Sited.bind .peek
  intro next
  split
  · apply Sited.look
    intro words part
    exact .fail (.expected part .notACondition _)
  · apply Sited.bind (.skip 1)
    intro _
    apply Sited.bind sited_quantifier
    intro quantifier
    cases quantifier with
    | some quantifier => exact .bind (sited_bracketedStatement sited _) fun _ => .pure _
    | none => exact .bind (sited .column) fun _ => .pure _

/-- What follows the column and perhaps `NOT` decides which predicate it is. -/
theorem sited_predicate : Sited source (predicate rules) := by
  apply Sited.bind (sited_column sited)
  intro left
  apply Sited.bind sited_negation
  intro negated
  apply Sited.bind (.eatKeyword .IN)
  intro isIn
  cases isIn with
  | true => exact sited_membership sited left negated
  | false =>
  apply Sited.bind (.eatKeyword .BETWEEN)
  intro between
  cases between with
  | true =>
      apply Sited.bind (sited .column)
      intro lower
      apply Sited.bind (.expectKeyword .AND)
      intro _
      exact .bind (sited .column) fun _ => .pure _
  | false =>
  apply Sited.bind (.eatKeyword .LIKE)
  intro like
  cases like with
  | true => exact .bind (sited .column) fun _ => .pure _
  | false =>
  apply Sited.bind (.eatKeyword .IS)
  intro is
  cases is with
  | false => exact sited_comparison sited left
  | true =>
      apply Sited.bind (.eatKeyword .NOT)
      intro absent
      exact .bind (.expectKeyword .NULL) fun _ => .pure _

/-- A bracket is tried as a condition first, and read as a predicate if it is none. -/
theorem sited_plainTerm : Sited source (plainTerm rules) := by
  apply Sited.bind (.eatKeyword .NOT)
  intro isNot
  cases isNot with
  | true => exact .bind (.nested (sited .term)) fun _ => .pure _
  | false =>
  apply Sited.bind (.eatKeyword .EXISTS)
  intro exists'
  cases exists' with
  | true => exact .bind (sited_bracketedStatement sited _) fun _ => .pure _
  | false =>
  apply Sited.bind (.check _)
  intro bracket
  cases bracket with
  | false => exact sited_predicate sited
  | true =>
      apply Sited.bind (.attempt (sited_bracketedCondition sited))
      intro found
      cases found with
      | none => exact sited_predicate sited
      | some term => exact .pure term

/-- Without hooks only the rule itself is left. -/
theorem sited_term : Sited source (term rules) := by
  apply Sited.bind (.hooked rfl)
  intro found
  cases found with
  | none => exact sited_plainTerm sited
  | some term => exact .pure term

/-- Behind an operator there must be a term. -/
theorem sited_link : Sited source (link rules) := by
  apply Sited.bind .peek
  intro next
  split
  · exact .pure none
  · apply Sited.bind (.skip 1)
    intro _
    exact .bind (.committed (sited_term sited)) fun _ => .pure _

/-- A term, and links as long as there are operators. -/
theorem sited_condition : Sited source (condition rules) := by
  apply Sited.bind (sited_term sited)
  intro left
  exact .bind (.many (sited_link sited)) fun _ => .pure _

end Rules

end SelectTree.Grammar
