/-
Module: SelectTree.Proofs.Grammar.Composed.Expression
Purpose: the rules for operands, columns and conditions are put together from the rules inside.
Main exports: Grammar.composed_operand, Grammar.composed_column, Grammar.composed_term,
  Grammar.composed_condition
-/
import SelectTree.Proofs.Grammar.Composed

namespace SelectTree

namespace Grammar

open SelectTree.Parser

variable (words : Words)

/-! ### Columns -/

theorem composed_sortDirection : Composed (fun _ => sortDirection) words := by
  apply Composed.seq (.eatKeyword .DESC words)
  intro desc rest
  cases desc with
  | true => exact .pure _ rest
  | false =>
      apply Composed.seq (.eatKeyword .ASC rest)
      intro _ rest
      exact .pure _ rest

/-- A name and its keyword are no brackets. -/
theorem composed_collation : Composed (fun _ => collation) words := by
  apply Composed.seq (.eatKeyword .COLLATE words)
  intro collates rest
  cases collates with
  | false => exact .pure none rest
  | true =>
      apply Composed.ahead
      rcases rest with _ | ⟨⟨kind, text, glued, index⟩, rest⟩
      · exact .failHere _ []
      · cases kind with
        | identifier name => exact .skipped rfl (.pure (some name) rest)
        | _ => exact .failHere _ _

/-- A column and words that are no brackets. -/
theorem composed_orderItem : Composed (fun rules => orderItem rules) words := by
  apply Composed.seq (.inner .column words)
  intro column rest
  apply Composed.seq (composed_collation rest)
  intro collation rest
  exact (composed_sortDirection rest).seq fun direction rest => .pure _ rest

theorem composed_frameSide : Composed (fun _ => frameSide) words := by
  apply Composed.seq (.eatKeyword .PRECEDING words)
  intro preceding rest
  cases preceding with
  | true => exact .pure _ rest
  | false =>
      apply Composed.seq (.eatKeyword .FOLLOWING rest)
      intro following rest
      cases following with
      | true => exact .pure _ rest
      | false => exact .failHere _ rest

/-- Only keywords and a number are consumed. -/
theorem composed_frameBound : Composed (fun _ => frameBound) words := by
  apply Composed.seq (.eatKeyword .UNBOUNDED words)
  intro unbounded rest
  cases unbounded with
  | true => exact (composed_frameSide rest).seq fun side rest => .pure _ rest
  | false =>
      apply Composed.seq (.eatKeyword .CURRENT rest)
      intro current rest
      cases current with
      | true => exact .seq (.expectKeyword .ROW rest) fun _ rest => .pure _ rest
      | false =>
          apply Composed.ahead
          rcases rest with _ | ⟨⟨kind, text, glued, index⟩, rest⟩
          · exact .failHere _ []
          · cases kind with
            | integer count =>
                by_cases negative : count < 0
                · simp only [List.head?_cons, if_pos negative]
                  exact .refuse _
                · simp only [List.head?_cons, if_neg negative]
                  exact .skipped rfl
                    ((composed_frameSide rest).seq fun side rest => .pure _ rest)
            | _ => exact .failHere _ _

theorem composed_frameUnit : Composed (fun _ => frameUnit) words := by
  apply Composed.seq (.eatKeyword .ROWS words)
  intro rows rest
  cases rows with
  | true => exact .pure _ rest
  | false =>
      apply Composed.seq (.eatKeyword .RANGE rest)
      intro range rest
      cases range <;> exact .pure _ rest

theorem composed_frame : Composed (fun _ => frame) words := by
  apply Composed.seq (composed_frameUnit words)
  intro unit rest
  cases unit with
  | none => exact .pure none rest
  | some unit =>
      apply Composed.seq (.eatKeyword .BETWEEN rest)
      intro between rest
      cases between with
      | false => exact (composed_frameBound rest).seq fun bound rest => .pure _ rest
      | true =>
          apply Composed.seq (composed_frameBound rest)
          intro lower rest
          apply Composed.seq (.expectKeyword .AND rest)
          intro _ rest
          exact (composed_frameBound rest).seq fun upper rest => .pure _ rest

/-- A list behind two keywords, or nothing. -/
theorem composed_listBy {α : Type} (keyword : Keyword) {item : Rules → Parser α}
    (composed : ∀ words, Composed item words) :
    Composed (fun rules => listBy keyword (item rules)) words := by
  apply Composed.seq (.eatKeyword keyword words)
  intro found rest
  cases found with
  | false => exact .pure [] rest
  | true =>
      apply Composed.seq (.expectKeyword .BY rest)
      intro _ rest
      exact (Composed.commaList composed rest).seq fun items rest => .pure _ rest

/-- A window is the contents of one bracket. -/
theorem composed_window : Composed (fun rules => window rules) words := by
  apply Composed.seq (.expectKeyword .OVER words)
  intro _ rest
  refine .bracketed fun group _ => ?_
  apply Composed.seq (composed_listBy _ .PARTITION (.inner .column))
  intro partitionBy rest
  apply Composed.seq (composed_listBy rest .ORDER composed_orderItem)
  intro orderBy rest
  apply Composed.seq (composed_frame rest)
  intro frame rest
  exact .seq (.expectEnd rest) fun _ rest => .pure _ rest

/-! ### Operands -/

/-- Braces are no brackets, and the words between them are a name and a string. -/
theorem composed_temporalConstant : Composed (fun _ => temporalConstant) words := by
  apply Composed.seq (.expect rfl _ words)
  intro opening rest
  apply Composed.ahead
  rcases rest with _ | ⟨⟨kind, text, glued, index⟩, rest⟩
  · exact .failAt _ _ []
  · cases kind with
    | identifier written =>
        apply Composed.skipped rfl
        apply Composed.ahead
        rcases rest with _ | ⟨⟨kind, text, glued, index⟩, rest⟩
        · exact .failHere _ []
        · cases kind with
          | string text =>
              apply Composed.skipped rfl
              cases temporalForm? written.toLower with
              | none => exact .failAt _ _ rest
              | some form =>
                  dsimp only
                  cases Temporal.read form text with
                  | error problem => exact .failAt _ _ rest
                  | ok value => exact .seq (.expect rfl _ rest) fun _ rest => .pure _ rest
          | _ => exact .failHere _ _
    | _ => exact .failAt _ _ _

/-- A number is skipped, or the rule for operands is applied. -/
theorem composed_negative : Composed (fun rules => negative rules) words := by
  have negated (words : Words) :
      Composed (fun rules => do return Phrase.negated (← rules.operand)) words :=
    Composed.seq (.inner .operand words) fun operand rest => .pure _ rest
  apply Composed.ahead
  rcases words with _ | ⟨⟨kind, text, glued, index⟩, rest⟩
  · exact negated []
  · cases kind with
    | integer value => exact .skipped rfl (.pure _ rest)
    | decimal text => exact .skipped rfl (.pure _ rest)
    | _ => exact negated _

/-- The columns are the segments of one bracket. -/
theorem composed_columnList : Composed (fun rules => columnList rules) words :=
  .bracketed fun _ _ => .segments fun segment _ => .inner .column segment

theorem composed_functionCall (name : NamePath 2) :
    Composed (fun rules => functionCall rules name) words :=
  (composed_columnList words).seq fun _ rest => .pure _ rest

/-- Rules that ask for at least one column refuse the empty list and take any other. -/
theorem composed_someColumns {α : Type} {next : List Column → Parser α}
    (vacant : ∀ rest, Composed (fun _ => next []) rest)
    (filled : ∀ first others rest, Composed (fun _ => next (first :: others)) rest) :
    Composed (fun rules => segments rules.column >>= next) words := by
  apply Composed.seq (.segments fun segment _ => .inner .column segment)
  intro columns rest
  cases columns with
  | nil => exact vacant rest
  | cons first others => exact filled first others rest

/-- The columns are the segments of what is left of the bracket. -/
theorem composed_aggregation (name : Word) (function : AggregateFunction) :
    Composed (fun rules => aggregation rules name function) words := by
  refine .bracketed fun group _ => ?_
  apply Composed.seq (.eatKeyword .DISTINCT _)
  intro distinct rest
  cases distinct with
  | true => exact composed_someColumns rest (.failAt _ _) fun _ _ => .pure _
  | false =>
      apply Composed.seq (.eatKeyword .ALL rest)
      intro _ rest
      exact composed_someColumns rest (.failAt _ _) fun _ _ => .pure _

/-- The words of the column are a range of their own and leave the others as they are. -/
theorem composed_singleColumn (opening : Word) (label : String) (range : Words) :
    Composed (fun rules => singleColumn rules opening label range) words := by
  apply Composed.aside (.segments fun segment _ => .inner .column segment)
  intro columns
  rcases columns with _ | ⟨column, _ | ⟨other, columns⟩⟩
  · exact .failAt _ _ words
  · exact .pure column words
  · exact .failAt _ _ words

/-- Cutting only looks at the words. -/
theorem composed_splitAtType (opening : Word) (label : String) :
    Composed (fun _ => splitAtType opening label) words := by
  apply Composed.look
  cases Words.lastKeyword? .AS words with
  | none => exact .failAt _ _ words
  | some place => exact .pure _ words

theorem composed_typeText (opening : Word) (label part text : String) :
    Composed (fun _ => typeText opening label part text) words := by
  by_cases vacant : text = ""
  · simp only [typeText, dif_pos vacant]
    exact .failAt _ _ words
  · simp only [typeText, dif_neg vacant]
    exact .pure _ words

/-- The value is a range within the bracket. -/
theorem composed_cast (label : String) (lenient : Bool) :
    Composed (fun rules => cast rules label lenient) words := by
  refine .bracketed fun group _ => ?_
  apply Composed.seq (composed_splitAtType _ group.opening label)
  intro parts rest
  apply Composed.seq (composed_typeText rest group.opening label _ _)
  intro type rest
  apply Composed.seq (composed_singleColumn rest group.opening label _)
  intro value rest
  exact .pure _ rest

/-- The arguments are a range within the bracket. -/
theorem composed_convert (label : String) (lenient : Bool) :
    Composed (fun rules => convert rules label lenient) words := by
  refine .bracketed fun group _ => ?_
  apply Composed.look
  apply Composed.seq (composed_typeText _ group.opening label _ _)
  intro type rest
  apply Composed.aside (.segments fun segment _ => .inner .column segment)
  intro columns
  rcases columns with _ | ⟨value, _ | ⟨style, _ | ⟨other, columns⟩⟩⟩
  · exact .failAt _ _ rest
  · exact .pure _ rest
  · exact .pure _ rest
  · exact .failAt _ _ rest

/-- Value and culture are ranges within the bracket. -/
theorem composed_parse (label : String) (lenient : Bool) :
    Composed (fun rules => parse rules label lenient) words := by
  refine .bracketed fun group _ => ?_
  apply Composed.seq (composed_splitAtType _ group.opening label)
  intro parts rest
  apply Composed.seq (composed_typeText rest group.opening label _ _)
  intro type rest
  apply Composed.seq (composed_singleColumn rest group.opening label _)
  intro value rest
  cases Words.firstKeyword? .USING parts.2 with
  | none => exact .pure _ rest
  | some place =>
      apply Composed.aside (.wholly (.inner .column _))
      intro culture
      exact .pure _ rest

/-- The three arguments are ranges within the bracket. -/
theorem composed_iif : Composed (fun rules => iif rules) words := by
  refine .bracketed fun group _ => ?_
  apply Composed.look
  rcases Words.splitCommas group.contents with
    _ | ⟨condition, _ | ⟨value, _ | ⟨otherwise, _ | ⟨more, segments⟩⟩⟩⟩
  case cons.cons.cons.nil =>
    apply Composed.aside (.committed (.wholly (.inner .condition condition)))
    intro condition
    apply Composed.aside (.wholly (.inner .column value))
    intro value
    apply Composed.aside (.wholly (.inner .column otherwise))
    intro otherwise
    exact .pure _ _
  all_goals exact .failAt _ _ _

/-- Every special call is a bracket behind its name. -/
theorem composed_specialCall (first : Word) (label : String) (call : SpecialCall) :
    Composed (fun rules => specialCall rules first label call) words := by
  cases call with
  | cast lenient => exact composed_cast words label lenient
  | convert lenient => exact composed_convert words label lenient
  | parse lenient => exact composed_parse words label lenient
  | iif => exact composed_iif words
  | aggregation function => exact composed_aggregation words first function

theorem composed_reference (first : Word) (parts : List Identifier) :
    Composed (fun _ => reference first parts) words := by
  rcases parts with _ | ⟨name, _ | ⟨other, _ | ⟨more, parts⟩⟩⟩
  · exact .failAt _ _ words
  · exact .pure _ words
  · exact .pure _ words
  · exact .failAt _ _ words

/-- Two words are skipped, a dot and a name, and neither is a bracket. -/
theorem composed_nextPart : Composed (fun _ => nextPart) words := by
  apply Composed.checked
  rcases words with _ | ⟨⟨kind, text, glued, index⟩, rest⟩
  · exact .pure none []
  · cases kind with
    | dot =>
        apply Composed.look
        rcases rest with _ | ⟨next, rest⟩
        · exact .skipped rfl (.failHere _ [])
        · by_cases star : next.kind = .star
          · simp only [List.tail_cons, List.head?_cons, if_pos star]
            exact .pure none _
          · simp only [List.tail_cons, List.head?_cons, if_neg star]
            cases named : next.identifier? with
            | none => exact .failAt _ _ _
            | some part =>
                have passes : Words.Passes ((⟨.dot, text, glued, index⟩ : Word) :: next :: rest)
                    rest :=
                  .trans (.word rfl) (.word (next.not_isBracket_of_identifier? named))
                exact .seq (.skip 2 passes) fun _ rest => .pure _ rest
    | _ => exact .pure none _

/-- What a dot and the word behind it decide about a further part of a name. -/
theorem nextPart_at_dot {scope : Scope} {dot next : Word} {rest : Words}
    (isDot : dot.kind = .dot) :
    nextPart scope (dot :: next :: rest) =
      if next.kind = .star then .ok (none, dot :: next :: rest)
      else
        match next.identifier? with
        | none => .error (.about next (.expected "a name after '.'"))
        | some part => .ok (some part, rest) := by
  obtain ⟨kind, text, glued, index⟩ := dot
  subst isDot
  change (if next.kind = .star then (pure none : Parser (Option Identifier))
    else
      match next.identifier? with
      | none => failAt next (.expected "a name after '.'")
      | some part => do
          skip 2
          return some part) scope _ = _
  split
  · rfl
  · cases next.identifier? <;> rfl

/-- A further part of a name takes words, and what is none takes none. -/
theorem nextPart_ok {scope : Scope} {words rest : Words} {part : Option Identifier}
    (read : nextPart scope words = .ok (part, rest)) :
    match part with
    | none => rest = words ∧ ∀ dot behind, words = dot :: behind → dot.kind = .dot →
        ∃ star left, behind = star :: left ∧ star.kind = .star
    | some _ => rest.length < words.length := by
  rcases words with _ | ⟨dot, behind⟩
  · cases read
    exact ⟨rfl, nofun⟩
  · by_cases isDot : dot.kind = .dot
    · rcases behind with _ | ⟨next, left⟩
      · obtain ⟨kind, text, glued, index⟩ := dot
        subst isDot
        cases read
      · rw [nextPart_at_dot isDot] at read
        split at read
        · next star =>
            cases read
            refine ⟨rfl, ?_⟩
            rintro _ _ ⟨⟩ -
            exact ⟨next, left, rfl, star⟩
        · split at read
          · cases read
          · cases read
            simp only [List.length_cons]
            omega
    · rw [nextPart, bind_apply, check_apply] at read
      simp [isDot] at read
      cases read
      refine ⟨rfl, ?_⟩
      rintro _ _ ⟨⟩ same
      exact absurd same isDot

/-- Behind all parts of a name stands no further part. -/
theorem nextPart_behind {scope : Scope} {count : Nat} {words rest : Words}
    {parts : List Identifier} (enough : words.length ≤ count)
    (read : manyUpTo nextPart count scope words = .ok (parts, rest)) :
    nextPart scope rest = .ok (none, rest) := by
  induction count generalizing words parts with
  | zero =>
      cases read
      rw [List.eq_nil_of_length_eq_zero (Nat.le_zero.1 enough)]
      rfl
  | succ count ih =>
      obtain ⟨part, left, readPart, readMore⟩ := bind_ok_iff.1 read
      have took := nextPart_ok readPart
      cases part with
      | none =>
          cases readMore
          obtain ⟨rfl, -⟩ := took
          exact readPart
      | some part =>
          obtain ⟨others, behind, readOthers, same⟩ := bind_ok_iff.1 readMore
          cases same
          exact ih (by simp only at took; omega) readOthers

/-- Behind the parts of a name, a dot stands before a star. -/
theorem composed_named (first : Word) (name : Identifier) :
    Composed (fun rules => named rules first name) words := by
  refine .bind (.many composed_nextPart words) fun _ scope others rest read => ?_
  have ended := (nextPart_ok (nextPart_behind (Nat.le_refl _) read)).2
  apply Composed.checked
  rcases rest with _ | ⟨⟨kind, text, glued, index⟩, rest⟩
  · exact .checked (composed_reference [] first _)
  · cases kind with
    | dot =>
        obtain ⟨star, left, rfl, isStar⟩ := ended _ _ rfl rfl
        have plain : Words.isBracket star.kind = false := by rw [isStar]; rfl
        have passes : Words.Passes ((⟨.dot, text, glued, index⟩ : Word) :: star :: left) left :=
          .trans (.word rfl) (.word plain)
        apply Composed.seq (.skip 2 passes)
        intro _ rest
        cases others with
        | nil => exact .pure _ rest
        | cons other others => exact .failAt _ _ rest
    | leftParen =>
        apply Composed.checked
        simp only [List.head?_cons]
        cases specialCall? (name :: others) with
        | some call => exact composed_specialCall _ first _ call
        | none =>
            by_cases short : (name :: others).length ≤ 2
            · simp only [dif_pos short]
              exact composed_functionCall _ _
            · simp only [dif_neg short]
              exact .failAt _ _ _
    | _ => exact .checked (composed_reference _ first _)

theorem composed_wholeStatement : Composed (fun rules => rules.wholeStatement) words :=
  .wholly (.inner .statement words)

/-- A column or a statement is the whole contents of one bracket. -/
theorem composed_bracketOperand : Composed (fun rules => bracketOperand rules) words := by
  refine .bracketed fun group _ => ?_
  apply Composed.look
  cases group.contents with
  | nil => exact .refuse _
  | cons word rest =>
      apply Composed.seq (.startsStatement _)
      intro starts rest
      cases starts with
      | true => exact (composed_wholeStatement rest).seq fun _ rest => .pure _ rest
      | false => exact (Composed.wholly (.inner .column rest)).seq fun _ rest => .pure _ rest

/-- Keywords around a condition and a column, or nothing. -/
theorem composed_searchedBranch : Composed (fun rules => searchedBranch rules) words := by
  apply Composed.seq (.eatKeyword .WHEN words)
  intro found rest
  cases found with
  | false => exact .pure none rest
  | true =>
      apply Composed.seq (.committed (.inner .condition rest))
      intro condition rest
      apply Composed.seq (.expectKeyword .THEN rest)
      intro _ rest
      exact .seq (.inner .column rest) fun _ rest => .pure _ rest

theorem composed_simpleBranch : Composed (fun rules => simpleBranch rules) words := by
  apply Composed.seq (.eatKeyword .WHEN words)
  intro found rest
  cases found with
  | false => exact .pure none rest
  | true =>
      apply Composed.seq (.inner .column rest)
      intro value rest
      apply Composed.seq (.expectKeyword .THEN rest)
      intro _ rest
      exact .seq (.inner .column rest) fun _ rest => .pure _ rest

theorem composed_caseEnd : Composed (fun rules => caseEnd rules) words := by
  have ended (otherwise : Perhaps .column) (words : Words) :
      Composed (fun _ => do
        let _ ← expectKeyword .END
        return otherwise) words :=
    .seq (.expectKeyword .END words) fun _ rest => .pure otherwise rest
  apply Composed.seq (.eatKeyword .ELSE words)
  intro found rest
  cases found with
  | false => exact ended .absent rest
  | true => exact .seq (.map Perhaps.present (.inner .column rest)) ended

/-- Branches and end stand behind `CASE`. -/
theorem composed_caseOperand : Composed (fun rules => caseOperand rules) words := by
  apply Composed.seq (.expectKeyword .CASE words)
  intro _ rest
  apply Composed.seq (.check _ rest)
  intro searched rest
  cases searched with
  | true =>
      apply Composed.seq (.many composed_searchedBranch rest)
      intro branches rest
      cases branches with
      | nil => exact .failHere _ rest
      | cons first others => exact (composed_caseEnd rest).seq fun _ rest => .pure _ rest
  | false =>
      apply Composed.seq (.inner .column rest)
      intro operand rest
      apply Composed.seq (.many composed_simpleBranch rest)
      intro branches rest
      cases branches with
      | nil => exact .failHere _ rest
      | cons first others => exact (composed_caseEnd rest).seq fun _ rest => .pure _ rest

/-- A word that is no bracket may begin with a name. -/
theorem composed_namedOperand (word : Word) (rest : Words) :
    Composed (fun rules => namedOperand rules word) (word :: rest) := by
  unfold namedOperand
  cases named : word.identifier? with
  | none => exact .failHere _ _
  | some name =>
      exact .skipped (word.not_isBracket_of_identifier? named) (composed_named rest word name)

/-- The keyword is the next word, so it is known to be no bracket. -/
theorem composed_keywordOperand {word : Word} {keyword : Keyword}
    (isKeyword : word.kind = .keyword keyword) (rest : Words) :
    Composed (fun rules => keywordOperand rules word keyword) (word :: rest) := by
  have plain : Words.isBracket word.kind = false := by rw [isKeyword]; rfl
  apply Composed.look
  by_cases function : keyword.isFunction ∧
      ((word :: rest).tail.head?.map Word.kind) = some .leftParen
  · simp only [if_pos function]
    exact .skipped plain (composed_functionCall rest _)
  · simp only [if_neg function]
    exact composed_namedOperand word rest

/-- What is skipped is known by the kind of the next word, which is never a bracket. -/
theorem composed_plainOperand : Composed (fun rules => plainOperand rules) words := by
  apply Composed.ahead
  rcases words with _ | ⟨⟨kind, text, glued, index⟩, rest⟩
  · exact .failHere _ []
  · cases kind with
    | integer value => exact .skipped rfl (.pure _ rest)
    | decimal text => exact .skipped rfl (.pure _ rest)
    | string value => exact .skipped rfl (.pure _ rest)
    | nationalString value => exact .skipped rfl (.pure _ rest)
    | leftBrace => exact composed_temporalConstant _
    | minus => exact .skipped rfl (.nested (composed_negative rest))
    | «variable» name => exact .skipped rfl (.pure _ rest)
    | star => exact .skipped rfl (.pure _ rest)
    | leftParen => exact composed_bracketOperand _
    | keyword keyword =>
        cases keyword with
        | CASE => exact .nested (composed_caseOperand _)
        | NULL => exact .skipped rfl (.pure _ rest)
        | _ => exact composed_keywordOperand rfl rest
    | _ => exact composed_namedOperand _ rest

theorem composed_operand : Composed (fun rules => operand rules) words := by
  apply Composed.seq (.hooked Hooks.operand words rfl)
  intro found rest
  cases found with
  | none => exact composed_plainOperand rest
  | some operand => exact .pure operand rest

/-! ### Runs, windows and aliases -/

theorem not_isBracket_of_arithmeticOperator? {kind : TokenKind} {operator : ArithmeticOperator}
    (isOperator : arithmeticOperator? kind = some operator) : Words.isBracket kind = false := by
  cases kind <;> first | rfl | cases isOperator

/-- An operator is one word and no bracket. -/
theorem composed_operation : Composed (fun rules => operation rules) words := by
  apply Composed.ahead
  rcases words with _ | ⟨word, rest⟩
  · exact .pure none []
  · simp only [List.head?_cons, Option.bind_some]
    cases isOperator : arithmeticOperator? word.kind with
    | none => exact .pure none _
    | some operator =>
        exact .skipped (not_isBracket_of_arithmeticOperator? isOperator)
          ((composed_operand rest).seq fun _ rest => .pure _ rest)

/-- An operand, operations and perhaps a window. -/
theorem composed_column : Composed (fun rules => column rules) words := by
  apply Composed.seq (composed_operand words)
  intro left rest
  apply Composed.seq (.many composed_operation rest)
  intro operations rest
  apply Composed.seq (.check _ rest)
  intro windowed rest
  cases windowed with
  | true => exact .seq (.map Perhaps.present (composed_window rest)) fun _ rest => .pure _ rest
  | false => exact .pure _ rest

theorem composed_selectColumn {column : Rules → Parser Column}
    (composed : ∀ words, Composed column words) :
    Composed (fun rules => selectColumn (column rules)) words := by
  apply Composed.seq (composed words)
  intro column rest
  exact .seq (.aliasName true rest) fun _ rest => .pure _ rest

/-! ### Conditions -/

theorem not_isBracket_of_orderOperator? {kind : TokenKind} {operator : OrderOperator}
    (isOperator : orderOperator? kind = some operator) : Words.isBracket kind = false := by
  cases kind <;> first | rfl | cases isOperator

theorem not_isBracket_of_logicOperator? {kind : TokenKind} {operator : LogicOperator}
    (isOperator : logicOperator? kind = some operator) : Words.isBracket kind = false := by
  cases kind <;> first | rfl | cases isOperator

/-- The contents of a bracket, which must be a statement. -/
theorem composed_demandedStatement (fault : Fault) :
    Composed (fun rules => do
      if !(← startsStatement) then Parser.fail fault
      rules.wholeStatement) words := by
  apply Composed.seq (.startsStatement words)
  intro starts rest
  cases starts with
  | true => exact composed_wholeStatement rest
  | false => exact .refuse fault

theorem composed_bracketedStatement (label : String) :
    Composed (fun rules => bracketedStatement rules label) words :=
  .bracketed fun group _ => composed_demandedStatement group.contents _

/-- A condition is the whole contents of one bracket. -/
theorem composed_bracketedCondition :
    Composed (fun rules => bracketedCondition rules) words := by
  refine .bracketed fun group _ => ?_
  apply Composed.look
  apply Composed.seq (.startsStatement _)
  intro starts rest
  cases group.contents.isEmpty || starts with
  | true => exact .refuse _
  | false => exact (Composed.wholly (.inner .condition rest)).seq fun _ rest => .pure _ rest

/-- The `NOT` that is skipped is the next word. -/
theorem composed_negation : Composed (fun _ => negation) words := by
  apply Composed.checked
  rcases words with _ | ⟨⟨kind, text, glued, index⟩, rest⟩
  · exact .pure false []
  · by_cases isNot : kind = .keyword .NOT
    · subst isNot
      apply Composed.look
      rcases rest with _ | ⟨⟨kind, text, glued, index⟩, rest⟩
      · exact .pure false _
      · cases kind with
        | keyword keyword =>
            cases keyword with
            | IN => exact .skipped rfl (.pure true _)
            | BETWEEN => exact .skipped rfl (.pure true _)
            | LIKE => exact .skipped rfl (.pure true _)
            | _ => exact .pure false _
        | _ => exact .pure false _
    · have other : (kind == .keyword .NOT) = false := by simpa using isNot
      simp only [List.head?_cons, Option.any_some, other]
      exact .pure false _

/-- What `IN` holds is the contents of one bracket. -/
theorem composed_membership (column : Column) (negated : Bool) :
    Composed (fun rules => membership rules column negated) words := by
  refine .bracketed fun group _ => ?_
  apply Composed.seq (.startsStatement _)
  intro starts rest
  cases starts with
  | true => exact (composed_wholeStatement rest).seq fun _ rest => .pure _ rest
  | false => exact composed_someColumns rest (.failAt _ _) fun _ _ => .pure _

theorem composed_quantifier : Composed (fun _ => quantifier) words := by
  apply Composed.seq (.eatKeyword .ANY words)
  intro any rest
  cases any with
  | true => exact .pure _ rest
  | false =>
      apply Composed.seq (.eatKeyword .SOME rest)
      intro some' rest
      cases some' with
      | true => exact .pure _ rest
      | false =>
          apply Composed.seq (.eatKeyword .ALL rest)
          intro all rest
          cases all <;> exact .pure _ rest

/-- A comparison skips its operator, which is no bracket. -/
theorem composed_comparison (left : Column) :
    Composed (fun rules => comparison rules left) words := by
  apply Composed.ahead
  rcases words with _ | ⟨word, rest⟩
  · exact .look (.fail _ [])
  · simp only [List.head?_cons, Option.bind_some]
    cases isOperator : orderOperator? word.kind with
    | none => exact .look (.fail _ _)
    | some operator =>
        apply Composed.skipped (not_isBracket_of_orderOperator? isOperator)
        apply Composed.seq (composed_quantifier rest)
        intro quantifier rest
        cases quantifier with
        | none => exact .seq (.inner .column rest) fun _ rest => .pure _ rest
        | some quantifier =>
            exact (composed_bracketedStatement rest _).seq fun _ rest => .pure _ rest

theorem composed_predicate : Composed (fun rules => predicate rules) words := by
  apply Composed.seq (composed_column words)
  intro left rest
  apply Composed.seq (composed_negation rest)
  intro negated rest
  apply Composed.seq (.eatKeyword .IN rest)
  intro isIn rest
  cases isIn with
  | true => exact composed_membership rest left negated
  | false =>
      apply Composed.seq (.eatKeyword .BETWEEN rest)
      intro between rest
      cases between with
      | true =>
          apply Composed.seq (.inner .column rest)
          intro lower rest
          apply Composed.seq (.expectKeyword .AND rest)
          intro _ rest
          exact .seq (.inner .column rest) fun _ rest => .pure _ rest
      | false =>
          apply Composed.seq (.eatKeyword .LIKE rest)
          intro like rest
          cases like with
          | true => exact .seq (.inner .column rest) fun _ rest => .pure _ rest
          | false =>
              apply Composed.seq (.eatKeyword .IS rest)
              intro is rest
              cases is with
              | false => exact composed_comparison rest left
              | true =>
                  apply Composed.seq (.eatKeyword .NOT rest)
                  intro absent rest
                  exact .seq (.expectKeyword .NULL rest) fun _ rest => .pure _ rest

/-- The attempt and the predicate behind it are both composed. -/
theorem composed_plainTerm : Composed (fun rules => plainTerm rules) words := by
  apply Composed.seq (.eatKeyword .NOT words)
  intro isNot rest
  cases isNot with
  | true => exact .seq (.nested (.inner .term rest)) fun _ rest => .pure _ rest
  | false =>
      apply Composed.seq (.eatKeyword .EXISTS rest)
      intro exists' rest
      cases exists' with
      | true => exact (composed_bracketedStatement rest _).seq fun _ rest => .pure _ rest
      | false =>
          apply Composed.seq (.check _ rest)
          intro bracket rest
          cases bracket with
          | false => exact composed_predicate rest
          | true =>
              apply Composed.seq (.attempt (composed_bracketedCondition rest))
              intro found rest
              cases found with
              | none => exact composed_predicate rest
              | some term => exact .pure term rest

theorem composed_term : Composed (fun rules => term rules) words := by
  apply Composed.seq (.hooked Hooks.term words rfl)
  intro found rest
  cases found with
  | none => exact composed_plainTerm rest
  | some term => exact .pure term rest

/-- A connective is one word and no bracket. -/
theorem composed_link : Composed (fun rules => link rules) words := by
  apply Composed.ahead
  rcases words with _ | ⟨word, rest⟩
  · exact .pure none []
  · simp only [List.head?_cons, Option.bind_some]
    cases isOperator : logicOperator? word.kind with
    | none => exact .pure none _
    | some operator =>
        apply Composed.skipped (not_isBracket_of_logicOperator? isOperator)
        exact (Composed.committed (composed_term rest)).seq fun _ rest => .pure _ rest

theorem composed_condition : Composed (fun rules => condition rules) words := by
  apply Composed.seq (composed_term words)
  intro left rest
  exact (Composed.many composed_link rest).seq fun _ rest => .pure _ rest

end Grammar

end SelectTree
