/-
Module: SelectTree.Proofs.Written.Expression
Purpose: the rules for operands, columns and conditions take words that are written as their phrases
  say.
Main exports: Grammar.Rules.Faithful, Grammar.reads_operand, Grammar.reads_column,
  Grammar.reads_term, Grammar.reads_condition
-/
import SelectTree.Proofs.Words.Part
import SelectTree.Proofs.Written.Combinator

namespace SelectTree

namespace Grammar

open SelectTree.Parser

/-- What the rules inside take is written as their phrases say. -/
structure Rules.Faithful (rules : Rules) : Prop where
  operand : Reads rules.operand Phrase.written
  column : Reads rules.column Phrase.written
  term : Reads rules.term Phrase.written
  condition : Reads rules.condition Phrase.written
  relation : Reads rules.relation Phrase.written
  statement : Reads rules.statement Phrase.written

/-! ### Columns -/

theorem reads_sortDirection : Reads sortDirection Written.sortDirection := by
  intro words
  apply (reads_eatKeyword .DESC words).begin
  intro desc rest
  cases desc with
  | true => exact .pure le_rfl
  | false =>
      apply (reads_eatKeyword .ASC rest).bind
      intro asc rest
      apply Takes.pure
      rw [Written.flagged, one_mul]
      exact Written.flagged_le_maybe _ asc

/-- A name of a collation is written without delimiters. -/
theorem reads_collation : Reads collation Written.collation := by
  intro words
  apply (reads_eatKeyword .COLLATE words).begin
  intro collates rest
  cases collates with
  | false => exact .pure le_rfl
  | true =>
      apply Takes.ahead
      rcases rest with _ | ⟨⟨kind, text, glued, index⟩, rest⟩
      · exact .failHere _
      · cases kind with
        | identifier name =>
            apply (Takes.word (·.kind = .identifier name) rfl).bind
            intro _ rest
            exact .pure le_rfl
        | _ => exact .failHere _

theorem reads_frameSide : Reads frameSide Written.frameSide := by
  intro words
  apply (reads_eatKeyword .PRECEDING words).begin
  intro preceding rest
  cases preceding with
  | true => exact .pure le_rfl
  | false =>
      apply (reads_eatKeyword .FOLLOWING rest).bind
      intro following rest
      cases following with
      | true => exact .pure (one_mul _).le
      | false => exact .failHere _

/-- A number in a bound is the one that is written. -/
theorem reads_frameBound : Reads frameBound Written.frameBound := by
  intro words
  apply (reads_eatKeyword .UNBOUNDED words).begin
  intro unbounded rest
  cases unbounded with
  | true => exact (reads_frameSide rest).bind fun side rest => .pure le_rfl
  | false =>
      apply (reads_eatKeyword .CURRENT rest).begin
      intro current rest
      cases current with
      | true => exact (reads_expectKeyword .ROW rest).bind fun _ rest => .pure le_rfl
      | false =>
          apply Takes.ahead
          rcases rest with _ | ⟨⟨kind, text, glued, index⟩, rest⟩
          · exact .failHere _
          · cases kind with
            | integer count =>
                by_cases negative : count < 0
                · simp only [List.head?_cons, if_pos negative]
                  exact .refuse _
                · simp only [List.head?_cons, if_neg negative]
                  apply (Takes.word (·.kind = .integer count) rfl).begin
                  intro _ rest
                  exact (reads_frameSide rest).bind fun side rest => .pure le_rfl
            | _ => exact .failHere _

theorem reads_frameUnit : Reads frameUnit (Written.optional Written.frameUnit) := by
  intro words
  apply (reads_eatKeyword .ROWS words).begin
  intro rows rest
  cases rows with
  | true => exact .pure le_rfl
  | false =>
      apply (reads_eatKeyword .RANGE rest).begin
      intro range rest
      cases range with
      | true => exact .pure le_rfl
      | false => exact .pure le_rfl

/-- With `BETWEEN` there are two bounds and an `AND`, without it there is one. -/
theorem reads_frame : Reads frame Written.frame := by
  intro words
  apply (reads_frameUnit words).begin
  intro unit rest
  cases unit with
  | none => exact .pure le_rfl
  | some unit =>
      apply (reads_eatKeyword .BETWEEN rest).bind
      intro between rest
      cases between with
      | false =>
          apply (reads_frameBound rest).bind
          intro bound rest
          apply Takes.pure
          rw [Written.flagged, mul_one]
          exact fun words member => .inr ⟨unit, bound, rfl, member⟩
      | true =>
          apply (reads_frameBound rest).bind
          intro lower rest
          apply (reads_expectKeyword .AND rest).bind
          intro _ rest
          apply (reads_frameBound rest).bind
          intro upper rest
          exact .pure fun words member => .inl ⟨unit, lower, upper, rfl, member⟩

/-- A comma list behind a keyword and `BY`, or nothing. -/
theorem reads_listBy {α : Type} (keyword : Keyword) {item : Parser α} {written : α → Language Word}
    (reads : Reads item written) :
    Reads (listBy keyword item) fun values =>
      Written.list (Written.keyword keyword * Written.keyword .BY) Written.comma
        (values.map written) := by
  intro words
  apply (reads_eatKeyword keyword words).begin
  intro found rest
  cases found with
  | false => exact .pure le_rfl
  | true =>
      apply (reads_expectKeyword .BY rest).bind
      intro _ rest
      apply (reads_commaList reads rest).bind
      intro items rest
      exact .pure (mul_assoc _ _ _).ge

section Inside

variable {rules : Rules} (faithful : rules.Faithful)
include faithful

theorem reads_orderItem : Reads (orderItem rules) Phrase.written := by
  intro words
  apply (faithful.column words).begin
  intro column rest
  apply (reads_collation rest).bind
  intro collation rest
  exact (reads_sortDirection rest).bind fun direction rest => .pure le_rfl

/-- The lists and the frame of a window fill its bracket. -/
theorem reads_window : Reads (window rules) Phrase.written := by
  intro words
  apply (reads_expectKeyword .OVER words).begin
  intro _ rest
  apply Takes.bracketed
  intro opening contents
  apply Spans.begin (reads_listBy .PARTITION faithful.column contents)
  intro partitionBy rest
  apply Spans.bind (reads_listBy .ORDER (reads_orderItem faithful) rest)
  intro orderBy rest
  apply Spans.bind (reads_frame rest)
  intro frame rest
  apply Spans.expectEnd
  apply Spans.ended
  apply Written.le_inside
  rw [Phrase.written, Written.written_ofList, Written.written_ofList]

end Inside

/-! ### Operands -/

/-- What is between the braces has the tag and the meaning of the constant. -/
theorem reads_temporalConstant : Reads temporalConstant Phrase.written := by
  intro words
  apply (reads_expect .leftBrace _ words).begin
  intro opening rest
  apply Takes.ahead
  rcases rest with _ | ⟨⟨kind, text, glued, index⟩, rest⟩
  · exact .failAt _ _
  · cases kind with
    | identifier tag =>
        apply (Takes.word (·.kind = .identifier tag) rfl).bind
        intro _ rest
        apply Takes.ahead
        rcases rest with _ | ⟨⟨kind, text, glued, index⟩, rest⟩
        · exact .failHere _
        · cases kind with
          | string text =>
              apply (Takes.word (·.kind = .string text) rfl).bind
              intro _ rest
              cases isForm : temporalForm? tag.toLower with
              | none => exact .failAt _ _
              | some form =>
                  dsimp only
                  cases meaning : Temporal.read form text with
                  | error problem => exact .failAt _ _
                  | ok value =>
                      apply (reads_expect .rightBrace _ rest).bind
                      intro _ rest
                      apply Takes.pure
                      refine le_trans ?_ le_sup_right
                      exact fun words member => ⟨tag, text, form, isForm, meaning, member⟩
          | _ => exact .failHere _
    | _ => exact .failAt _ _

/-- The words of the value and of the type are all but an `AS`, and the type is balanced if the
whole is. -/
theorem learns_splitAtType (opening : Word) (label : String) (words : Words) :
    Learns (splitAtType opening label) words fun parts =>
      (∃ word : Word, word.kind = .keyword .AS ∧ words = parts.1 ++ word :: parts.2) ∧
        (words.Balanced → parts.2.Balanced) := by
  unfold splitAtType
  cases found : Words.lastKeyword? .AS words with
  | none =>
      intro scope value rest _ read
      rw [bind_ok_iff] at read
      obtain ⟨_, _, ⟨⟩, read⟩ := read
      rw [found] at read
      cases read
  | some place =>
      intro scope value rest _ read
      rw [bind_ok_iff] at read
      obtain ⟨_, _, ⟨⟩, read⟩ := read
      rw [found] at read
      cases read
      exact ⟨rfl, Words.exists_of_lastKeyword? found,
        fun balanced => balanced.drop_of_lastKeyword? found⟩

/-- The type that is kept has the text that it was given. -/
theorem learns_typeText (opening : Word) (label part text : String) (words : Words) :
    Learns (typeText opening label part text) words fun type => text = type.text := by
  by_cases vacant : text = ""
  · simp only [typeText, dif_pos vacant]
    exact .failAt _ _
  · simp only [typeText, dif_neg vacant]
    exact .pure rfl

/-- The words of a type are balanced if the words of the type and the culture are. -/
theorem balanced_splitAtCulture {words : Words} (balanced : words.Balanced) :
    (splitAtCulture words).1.Balanced := by
  unfold splitAtCulture
  cases found : Words.firstKeyword? .USING words with
  | none => exact balanced
  | some place => exact balanced.take_of_firstKeyword? found

/-- The words of the type and of the culture are all but a `USING`. -/
theorem splitAtCulture_eq (words : Words) :
    match splitAtCulture words with
    | (type, none) => words = type
    | (type, some culture) =>
        ∃ word : Word, word.kind = .keyword .USING ∧ words = type ++ word :: culture := by
  unfold splitAtCulture
  cases found : Words.firstKeyword? .USING words with
  | none => rfl
  | some place => exact Words.exists_of_firstKeyword? found

section Inside

variable {rules : Rules} (faithful : rules.Faithful)
include faithful

/-- Behind a minus sign. -/
theorem takes_negative (words : Words) :
    Takes (Written.kind .minus) (negative rules) words Phrase.written := by
  have negated (words : Words)
      (noNumber : ∀ word ∈ words.head?, Written.negated? word.kind = none) :
      Takes (Written.kind .minus) (do return Phrase.negated (← rules.operand)) words
        Phrase.written :=
    (Takes.begun _ (faithful.operand words) Phrase.written_le_begun noNumber).bind
      fun operand rest => .pure le_rfl
  apply Takes.ahead
  rcases words with _ | ⟨⟨kind, text, glued, index⟩, rest⟩
  · exact negated [] nofun
  · cases kind with
    | integer value =>
        apply Takes.bind (Takes.word (Written.negated? ·.kind = some (.integer (-value))) rfl)
        intro _ rest
        exact .pure (le_sup_of_le_left le_sup_right)
    | decimal text =>
        apply Takes.bind (Takes.word (Written.negated? ·.kind = some (.decimal ("-" ++ text))) rfl)
        intro _ rest
        exact .pure (le_sup_of_le_left le_sup_right)
    | _ =>
        apply negated
        rintro _ ⟨⟩
        rfl

/-- The columns are the segments of the bracket, so there are commas between them and nowhere else.
-/
theorem reads_columnList :
    Reads (columnList rules) fun columns =>
      Written.bracket (Written.list 1 Written.comma (columns.map Phrase.written)) := by
  intro words
  apply Takes.bracketed
  intro opening contents
  apply (exhausts_segments faithful.column contents).spans.last
  intro columns
  rw [one_mul]
  exact Written.le_inside (one_mul _).le

/-- A call is written behind its name, whatever was taken as the name. -/
theorem takes_functionCall {front : Language Word} {name : NamePath 2}
    (below : front ≤ Written.functionName name.parts) (words : Words) :
    Takes front (functionCall rules name) words Phrase.written := by
  apply (reads_columnList faithful words).bind
  intro columns rest
  apply Takes.pure
  rw [Phrase.written, Written.written_ofList]
  exact mul_le_mul' below le_rfl

/-- Rules that ask for at least one column refuse the empty list. -/
theorem spans_someColumns {β : Type} {front : Language Word} {next : List Column → Parser β}
    {whole : β → Language Word} {words : Words}
    (vacant : ∀ front, Spans front (next []) [] whole)
    (filled : ∀ first others,
      Spans (front * (first.written * (Phrases.ofList others).written Written.comma Written.comma))
        (next (first :: others)) [] whole) :
    Spans front (segments rules.column >>= next) words whole := by
  apply (exhausts_segments faithful.column words).bind
  intro columns
  cases columns with
  | nil => exact vacant _
  | cons first others =>
      have found := filled first others
      rwa [Written.written_ofList, ← one_mul first.written] at found

/-- Behind the name of an aggregation. -/
theorem takes_aggregation (name : Word) (function : AggregateFunction) (words : Words) :
    Takes (Written.called (.aggregation function)) (aggregation rules name function) words
      Phrase.written := by
  apply Takes.bracketed
  intro opening contents
  apply Spans.begin (reads_eatKeyword .DISTINCT contents)
  intro distinct rest
  cases distinct with
  | true =>
      apply spans_someColumns faithful (fun _ => .failAt _ _)
      intro first others
      apply Spans.ended
      apply Written.le_inside
      rw [Phrase.written, if_pos rfl, ← mul_assoc]
      exact le_rfl
  | false =>
      apply Spans.bind (reads_eatKeyword .ALL rest)
      intro all rest
      have flag : Written.flagged (Written.keyword .DISTINCT) false *
          Written.flagged (Written.keyword .ALL) all ≤ Written.maybe (Written.keyword .ALL) := by
        rw [Written.flagged, one_mul]
        exact Written.flagged_le_maybe _ all
      apply spans_someColumns faithful (fun _ => .failAt _ _)
      intro first others
      apply Spans.ended
      apply Written.le_inside
      rw [Phrase.written, if_neg nofun, ← mul_assoc]
      exact mul_le_mul' le_rfl (Written.bracket_mono (mul_le_mul' (mul_le_mul' flag le_rfl) le_rfl))

/-- The range is written as the column, and nothing is taken. -/
theorem learns_singleColumn (opening : Word) (label : String) (range words : Words) :
    Learns (singleColumn rules opening label range) words fun column => range ∈ column.written := by
  apply (Learns.within (exhausts_segments faithful.column range).spans).seq
  intro columns member
  rcases columns with _ | ⟨column, _ | ⟨other, columns⟩⟩
  · exact .failAt _ _
  · apply Learns.pure
    simpa [Written.list] using member
  · exact .failAt _ _

/-- Behind the name of a cast. -/
theorem takes_cast (label : String) (lenient : Bool) (words : Words) :
    Takes (Written.called (.cast lenient)) (cast rules label lenient) words Phrase.written := by
  apply Takes.bracketedBalanced
  intro opening contents balanced
  apply (learns_splitAtType opening label contents).bind
  rintro parts ⟨⟨word, isAs, split⟩, typeBalanced⟩
  apply (learns_typeText opening label _ _ contents).bind
  intro type isType
  apply (learns_singleColumn faithful opening label parts.1 contents).bind
  intro value isValue
  apply Spans.known
  have member : contents ∈ value.written * Written.keyword .AS * Written.verbatim type := by
    rw [split, List.append_cons]
    exact Language.append_mem_mul (Language.append_mem_mul isValue (Written.mem_kind isAs))
      ⟨typeBalanced balanced, isType⟩
  exact Written.mem_of_le (Written.le_inside le_rfl) member

/-- Behind the name of a parse. -/
theorem takes_parse (label : String) (lenient : Bool) (words : Words) :
    Takes (Written.called (.parse lenient)) (parse rules label lenient) words Phrase.written := by
  apply Takes.bracketedBalanced
  intro opening contents balanced
  apply (learns_splitAtType opening label contents).bind
  rintro ⟨valueWords, behind⟩ ⟨⟨word, isAs, split⟩, behindBalanced⟩
  have target := splitAtCulture_eq behind
  have typeBalanced := balanced_splitAtCulture (behindBalanced balanced)
  dsimp only at split ⊢
  rcases cut : splitAtCulture behind with ⟨typeWords, culture⟩
  rw [cut] at target typeBalanced
  dsimp only
  apply (learns_typeText opening label _ _ contents).bind
  intro type isType
  apply (learns_singleColumn faithful opening label valueWords contents).bind
  intro value isValue
  have before : valueWords ++ [word] ++ typeWords ∈
      value.written * Written.keyword .AS * Written.verbatim type :=
    Language.append_mem_mul (Language.append_mem_mul isValue (Written.mem_kind isAs))
      ⟨typeBalanced, isType⟩
  cases culture with
  | none =>
      apply Spans.known
      rw [target, List.append_cons] at split
      rw [split]
      refine Written.mem_of_le (Written.le_inside ?_) before
      rw [Phrase.written, Perhaps.written, mul_one]
  | some cultureWords =>
      obtain ⟨using', isUsing, target⟩ := target
      apply (Learns.within (Exhausts.wholly (faithful.column cultureWords)).spans).bind
      intro culture isCulture
      apply Spans.known
      rw [target, List.append_cons, ← List.append_assoc, List.append_cons] at split
      rw [split]
      refine Written.mem_of_le (Written.le_inside ?_) (Language.append_mem_mul
        (Language.append_mem_mul before (Written.mem_kind isUsing)) isCulture)
      rw [Phrase.written, Perhaps.written, mul_one, ← mul_assoc]
      exact le_rfl

/-- Behind the name of a conversion. -/
theorem takes_convert (label : String) (lenient : Bool) (words : Words) :
    Takes (Written.called (.convert lenient)) (convert rules label lenient) words
      Phrase.written := by
  apply Takes.bracketedBalanced
  intro opening contents balanced
  apply Spans.look
  obtain ⟨front, text_eq, frontBalanced, found⟩ := Words.exists_of_textUntilComma contents
  rcases cut : Words.textUntilComma contents with ⟨text, arguments⟩
  rw [cut] at text_eq found
  dsimp only at text_eq found ⊢
  apply (learns_typeText opening label _ _ contents).bind
  intro type isType
  rw [text_eq] at isType
  rcases found with ⟨-, rfl⟩ | ⟨word, isComma, split⟩
  · rintro scope _ _ - ⟨⟩
  · apply (Learns.within (exhausts_segments faithful.column _).spans).bind
    intro columns member
    have isFront : front ∈ Written.verbatim type := ⟨frontBalanced balanced, isType⟩
    have all := Language.append_mem_mul
      (Language.append_mem_mul isFront (Written.mem_kind isComma)) member
    rw [← List.append_cons, ← split] at all
    rcases columns with _ | ⟨value, _ | ⟨style, _ | ⟨other, columns⟩⟩⟩
    · exact .failAt _ _
    · apply Spans.known
      refine Written.mem_of_le (Written.le_inside ?_) all
      simp only [List.map_cons, List.map_nil, Written.list, Phrase.written, Perhaps.written, one_mul,
        mul_one]
      exact le_rfl
    · apply Spans.known
      refine Written.mem_of_le (Written.le_inside ?_) all
      simp only [List.map_cons, List.map_nil, Written.list, Phrase.written, Perhaps.written, one_mul,
        mul_one, mul_assoc]
      exact le_rfl
    · exact .failAt _ _

/-- Behind the name `IIF`. -/
theorem takes_iif (words : Words) :
    Takes (Written.called .iif) (iif rules) words Phrase.written := by
  apply Takes.bracketed
  intro opening contents
  apply Spans.look
  have split := Written.mem_list_splitCommas contents
  rcases cut : Words.splitCommas contents with
    _ | ⟨conditionWords, _ | ⟨valueWords, _ | ⟨otherWords, _ | ⟨more, segments⟩⟩⟩⟩
  case cons.cons.cons.nil =>
    apply (Learns.within
      (Exhausts.wholly (faithful.condition conditionWords)).spans.committed).bind
    intro condition isCondition
    apply (Learns.within (Exhausts.wholly (faithful.column valueWords)).spans).bind
    intro value isValue
    apply (Learns.within (Exhausts.wholly (faithful.column otherWords)).spans).bind
    intro otherwise isOtherwise
    apply Spans.known
    rw [cut] at split
    have single {words : Words} {language : Language Word} (member : words ∈ language) :
        ({words} : Language Word) ≤ language := Set.singleton_subset_iff.2 member
    have below : List.Forall₂ (· ≤ ·)
        [({conditionWords} : Language Word), {valueWords}, {otherWords}]
        [condition.written, value.written, otherwise.written] :=
      .cons (single isCondition) (.cons (single isValue) (.cons (single isOtherwise) .nil))
    refine Written.mem_of_le (Written.le_inside ?_)
      (Written.mem_of_le (Written.list_mono below) split)
    simp only [Written.list, Phrase.written, one_mul, mul_one, mul_assoc]
    exact le_rfl
  all_goals exact .failAt _ _

/-- Behind a name that begins a special call. -/
theorem takes_specialCall (first : Word) (label : String) (call : SpecialCall) (words : Words) :
    Takes (Written.called call) (specialCall rules first label call) words Phrase.written := by
  cases call with
  | cast lenient => exact takes_cast faithful label lenient words
  | convert lenient => exact takes_convert faithful label lenient words
  | parse lenient => exact takes_parse faithful label lenient words
  | iif => exact takes_iif faithful words
  | aggregation function => exact takes_aggregation faithful first function words

end Inside

/-- What the parts of a name refer to when nothing follows. -/
theorem takes_reference (first : Word) (parts : List Identifier) (words : Words) :
    Takes (Written.path parts) (reference first parts) words Phrase.written := by
  rcases parts with _ | ⟨name, _ | ⟨other, _ | ⟨more, parts⟩⟩⟩
  · exact .failAt _ _
  · apply Takes.pure
    simp [Written.path, Written.list, Phrase.written]
  · exact .pure le_rfl
  · exact .failAt _ _

theorem reads_nextPart :
    Reads nextPart (Written.optional fun part => Written.kind .dot * Written.name part) := by
  intro words
  apply Takes.checked
  rcases words with _ | ⟨⟨kind, text, glued, index⟩, rest⟩
  · exact .pure le_rfl
  · cases kind with
    | dot =>
        apply Takes.look
        rcases rest with _ | ⟨next, rest⟩
        · exact .bind (.word (fun _ => True) trivial) fun _ _ => .failHere _
        · by_cases star : next.kind = .star
          · simp only [List.tail_cons, List.head?_cons, if_pos star]
            exact .pure le_rfl
          · simp only [List.tail_cons, List.head?_cons, if_neg star]
            cases named : next.identifier? with
            | none => exact .failAt _ _
            | some part =>
                apply (Takes.twoWords (·.kind = .dot) (·.identifier? = some part) rfl named).begin
                intro _ rest
                exact .pure le_rfl
    | _ => exact .pure le_rfl

section Inside

variable {rules : Rules} (faithful : rules.Faithful)
include faithful

/-- Behind the first part of a name. -/
theorem takes_named (first : Word) (name : Identifier) (words : Words) :
    Takes (Written.name name) (named rules first name) words Phrase.written := by
  apply (reads_many reads_nextPart words).bindWith
  intro scope others rest read
  have ended := (nextPart_ok (nextPart_behind (Nat.le_refl _) read)).2
  rw [Written.list_one_one, ← Written.path_cons]
  apply Takes.checked
  rcases rest with _ | ⟨⟨kind, text, glued, index⟩, rest⟩
  · exact .checked (takes_reference first _ [])
  · cases kind with
    | dot =>
        obtain ⟨star, left, rfl, isStar⟩ := ended _ _ rfl rfl
        apply Takes.bind (Takes.twoWords (·.kind = .dot) (·.kind = .star) rfl isStar)
        intro _ rest
        cases others with
        | nil =>
            apply Takes.pure
            rw [Written.path_cons, List.map_nil, Written.list, mul_one, ← mul_assoc]
            exact le_rfl
        | cons other others => exact .failAt _ _
    | leftParen =>
        apply Takes.checked
        simp only [List.head?_cons]
        cases isCall : specialCall? (name :: others) with
        | some call =>
            have single : others = [] := by
              cases others with
              | nil => rfl
              | cons => cases isCall
            subst single
            have below : Written.path [name] ≤ Written.called call := by
              rw [Written.path_cons, List.map_nil, Written.list, mul_one]
              rintro _ ⟨word, named, rfl⟩
              exact Written.mem_one ⟨name, named, isCall⟩
            exact (takes_specialCall faithful first _ call _).mono below
        | none =>
            by_cases short : (name :: others).length ≤ 2
            · simp only [dif_pos short]
              exact takes_functionCall faithful (Written.path_le_functionName _) _
            · simp only [dif_neg short]
              exact .failAt _ _
    | _ => exact .checked (takes_reference first _ _)

/-- A whole statement leaves nothing over. -/
theorem exhausts_wholeStatement (words : Words) :
    Exhausts rules.wholeStatement words Phrase.written :=
  .wholly (faithful.statement words)

/-- A bracket is written as the column or the statement that fills it. -/
theorem reads_bracketOperand : Reads (bracketOperand rules) Phrase.written := by
  intro words
  apply Takes.bracketed
  intro opening contents
  apply Spans.look
  cases contents with
  | nil => exact .refuse _
  | cons word rest =>
      apply Spans.startsStatement
      intro starts
      cases starts with
      | true =>
          apply (exhausts_wholeStatement faithful _).begin
          intro statement
          exact .ended (Written.le_inside (one_mul _).le)
      | false =>
          apply (Exhausts.wholly (faithful.column _)).begin
          intro column
          exact .ended (Written.le_inside (one_mul _).le)

theorem reads_searchedBranch :
    Reads (searchedBranch rules) (Written.optional Phrase.written) := by
  intro words
  apply (reads_eatKeyword .WHEN words).begin
  intro found rest
  cases found with
  | false => exact .pure le_rfl
  | true =>
      apply Takes.bind (faithful.condition rest).committed
      intro condition rest
      apply (reads_expectKeyword .THEN rest).bind
      intro _ rest
      exact (faithful.column rest).bind fun result rest => .pure le_rfl

theorem reads_simpleBranch : Reads (simpleBranch rules) (Written.optional Phrase.written) := by
  intro words
  apply (reads_eatKeyword .WHEN words).begin
  intro found rest
  cases found with
  | false => exact .pure le_rfl
  | true =>
      apply (faithful.column rest).bind
      intro value rest
      apply (reads_expectKeyword .THEN rest).bind
      intro _ rest
      exact (faithful.column rest).bind fun result rest => .pure le_rfl

/-- `ELSE` is written exactly if there is something behind it. -/
theorem reads_caseEnd :
    Reads (caseEnd rules) fun otherwise =>
      otherwise.written (Written.keyword .ELSE) 1 * Written.keyword .END := by
  intro words
  have ended {front : Language Word} (otherwise : Perhaps .column)
      (below : front ≤ otherwise.written (Written.keyword .ELSE) 1) (words : Words) :
      Takes front (do
        let _ ← expectKeyword .END
        return otherwise) words fun otherwise =>
          otherwise.written (Written.keyword .ELSE) 1 * Written.keyword .END :=
    (reads_expectKeyword .END words).bind fun _ rest => .pure (mul_le_mul' below le_rfl)
  apply (reads_eatKeyword .ELSE words).begin
  intro found rest
  cases found with
  | false => exact ended .absent le_rfl rest
  | true =>
      apply (faithful.column rest).bindMap
      intro value rest
      exact ended (.present value) (mul_one _).ge rest

/-- The branches of a `CASE` are written behind its operand, if it has one. -/
theorem reads_caseOperand : Reads (caseOperand rules) Phrase.written := by
  intro words
  apply (reads_expectKeyword .CASE words).begin
  intro _ rest
  apply Takes.checkedKeyword
  intro searched
  cases searched with
  | true =>
      apply (reads_many (reads_searchedBranch faithful) rest).bind
      intro branches rest
      cases branches with
      | nil => exact .failHere _
      | cons first others =>
          apply (reads_caseEnd faithful rest).bind
          intro otherwise rest
          apply Takes.pure
          rw [Phrase.written, Written.written_ofList, List.map_cons, Written.list, one_mul]
          simp only [mul_assoc]
          exact le_rfl
  | false =>
      apply (faithful.column rest).bind
      intro operand rest
      apply (reads_many (reads_simpleBranch faithful) rest).bind
      intro branches rest
      cases branches with
      | nil => exact .failHere _
      | cons first others =>
          apply (reads_caseEnd faithful rest).bind
          intro otherwise rest
          apply Takes.pure
          rw [Phrase.written, Written.written_ofList, List.map_cons, Written.list, one_mul]
          simp only [mul_assoc]
          exact le_rfl

/-- A word that may begin with a name. -/
theorem takes_namedOperand (word : Word) (rest : Words) :
    Takes 1 (namedOperand rules word) (word :: rest) Phrase.written := by
  unfold namedOperand
  cases named : word.identifier? with
  | none => exact .failHere _
  | some name =>
      apply (Takes.word (·.identifier? = some name) named).begin
      intro _ rest
      exact takes_named faithful word name rest

/-- A keyword in front of a bracket is written as the name of a function, and as a name elsewhere.
-/
theorem takes_keywordOperand {word : Word} {keyword : Keyword}
    (isKeyword : word.kind = .keyword keyword) (rest : Words) :
    Takes 1 (keywordOperand rules word keyword) (word :: rest) Phrase.written := by
  apply Takes.look
  by_cases function : keyword.isFunction ∧
      ((word :: rest).tail.head?.map Word.kind) = some .leftParen
  · simp only [if_pos function]
    apply (Takes.word (fun other => ∃ keyword, other.kind = .keyword keyword ∧ keyword.isFunction ∧
      [Identifier.plain word.text] = [.plain other.text]) ⟨keyword, isKeyword, function.1, rfl⟩).begin
    intro _ rest
    exact takes_functionCall faithful le_sup_right rest
  · simp only [if_neg function]
    exact takes_namedOperand faithful word rest

/-- One case for each kind of word that an operand may begin with. -/
theorem reads_plainOperand : Reads (plainOperand rules) Phrase.written := by
  intro words
  apply Takes.ahead
  rcases words with _ | ⟨⟨kind, text, glued, index⟩, rest⟩
  · exact .failHere _
  · have constant {value : Literal} (isConstant : constant? kind = some value) :
        Takes 1 (do
          skip 1
          return Phrase.literal value) ((⟨kind, text, glued, index⟩ : Word) :: rest)
          Phrase.written := by
      apply (Takes.word (constant? ·.kind = some value) isConstant).begin
      intro _ rest
      exact .pure (le_sup_of_le_left le_sup_left)
    cases kind with
    | integer value => exact constant rfl
    | decimal text => exact constant rfl
    | string value => exact constant rfl
    | nationalString value => exact constant rfl
    | leftBrace => exact reads_temporalConstant _
    | minus =>
        apply (Takes.word (·.kind = .minus) rfl).begin
        intro _ rest
        exact (takes_negative faithful rest).nested
    | «variable» name =>
        apply (Takes.word (·.kind = .variable name) rfl).begin
        intro _ rest
        exact .pure le_rfl
    | star =>
        apply (Takes.word (·.kind = .star) rfl).begin
        intro _ rest
        exact .pure le_rfl
    | leftParen => exact reads_bracketOperand faithful _
    | keyword keyword =>
        cases keyword with
        | CASE => exact (reads_caseOperand faithful _).nested
        | NULL =>
            apply (Takes.word (·.kind = .keyword .NULL) rfl).begin
            intro _ rest
            exact .pure le_rfl
        | _ => exact takes_keywordOperand faithful rfl rest
    | _ => exact takes_namedOperand faithful _ rest

theorem reads_operand : Reads (operand rules) Phrase.written := by
  intro words
  apply Takes.begin (Takes.hooked rfl)
  intro found rest
  cases found with
  | none => exact reads_plainOperand faithful rest
  | some operand => exact .pure le_rfl

/-! ### Runs and aliases -/

theorem reads_operation : Reads (operation rules) (Written.optional Phrase.written) := by
  intro words
  apply Takes.ahead
  rcases words with _ | ⟨word, rest⟩
  · exact .pure le_rfl
  · simp only [List.head?_cons, Option.bind_some]
    cases isOperator : arithmeticOperator? word.kind with
    | none => exact .pure le_rfl
    | some operator =>
        apply (Takes.word (arithmeticOperator? ·.kind = some operator) isOperator).begin
        intro _ rest
        exact (reads_operand faithful rest).bind fun operand rest => .pure le_rfl

/-- Operations and window are written behind the first operand. -/
theorem reads_column : Reads (column rules) Phrase.written := by
  intro words
  apply (reads_operand faithful words).begin
  intro left rest
  apply (reads_many (reads_operation faithful) rest).bind
  intro operations rest
  rw [← Written.written_ofList]
  apply Takes.checkedKeyword
  intro windowed
  cases windowed with
  | true =>
      apply (reads_window faithful rest).bindMap
      intro window rest
      apply Takes.pure
      rw [Phrase.written, Perhaps.written, one_mul, mul_one]
  | false =>
      apply Takes.pure
      rw [Phrase.written, Perhaps.written, mul_one]

end Inside

theorem reads_selectColumn {column : Parser Column} (reads : Reads column Phrase.written) :
    Reads (selectColumn column) Phrase.written := by
  intro words
  apply (reads words).begin
  intro column rest
  exact (reads_aliasName true rest).bind fun called rest => .pure le_rfl

/-! ### Conditions -/

/-- What is not eaten is not there. -/
theorem eat_false {isKind : TokenKind} {scope : Scope} {words rest : Words}
    (read : eat isKind scope words = .ok (false, rest)) :
    rest = words ∧ words.head?.any (·.kind == isKind) = false := by
  rw [eat_apply] at read
  split at read
  · cases read
  · next other =>
      cases read
      exact ⟨rfl, Bool.eq_false_iff.2 other⟩

/-- A `NOT` is taken only with its predicate behind it. -/
theorem reads_negation :
    Reads negation (Written.flagged (Written.keyword .NOT)) := by
  intro words
  apply Takes.checked
  rcases words with _ | ⟨⟨kind, text, glued, index⟩, rest⟩
  · exact .pure le_rfl
  · by_cases isNot : kind = .keyword .NOT
    · subst isNot
      have taken : Takes 1 (do
          skip 1
          return true) ((⟨.keyword .NOT, text, glued, index⟩ : Word) :: rest)
          (Written.flagged (Written.keyword .NOT)) := by
        apply (Takes.word (·.kind = .keyword .NOT) rfl).begin
        intro _ rest
        exact .pure le_rfl
      apply Takes.look
      rcases rest with _ | ⟨⟨kind, text, glued, index⟩, rest⟩
      · exact .pure le_rfl
      · cases kind with
        | keyword keyword =>
            cases keyword with
            | IN => exact taken
            | BETWEEN => exact taken
            | LIKE => exact taken
            | _ => exact .pure le_rfl
        | _ => exact .pure le_rfl
    · have other : (kind == .keyword .NOT) = false := by simpa using isNot
      simp only [List.head?_cons, Option.any_some, other]
      exact .pure le_rfl

/-- `NOT` is taken only in front of a keyword that it may negate. -/
theorem negation_true {scope : Scope} {words rest : Words}
    (read : negation scope words = .ok (true, rest)) :
    rest.head?.any (·.kind == .keyword .IN) = true ∨
      rest.head?.any (·.kind == .keyword .BETWEEN) = true ∨
        rest.head?.any (·.kind == .keyword .LIKE) = true := by
  rcases words with _ | ⟨⟨kind, text, glued, index⟩, behind⟩
  · cases read
  · by_cases isNot : kind = .keyword .NOT
    · subst isNot
      rcases behind with _ | ⟨⟨next, nextText, nextGlued, nextIndex⟩, behind⟩
      · cases read
      · cases next with
        | keyword keyword =>
            cases keyword with
            | IN =>
                cases read
                exact .inl rfl
            | BETWEEN =>
                cases read
                exact .inr (.inl rfl)
            | LIKE =>
                cases read
                exact .inr (.inr rfl)
            | _ => cases read
        | _ => cases read
    · rw [negation, bind_apply, checkKeyword, check_apply] at read
      simp [isNot] at read
      cases read

/-- In front of anything else nothing is negated. -/
theorem negation_eq_false {scope : Scope} {words rest : Words} {negated : Bool}
    (read : negation scope words = .ok (negated, rest))
    (notIn : rest.head?.any (·.kind == .keyword .IN) = false)
    (notBetween : rest.head?.any (·.kind == .keyword .BETWEEN) = false)
    (notLike : rest.head?.any (·.kind == .keyword .LIKE) = false) : negated = false := by
  cases negated with
  | false => rfl
  | true =>
      have negates := negation_true read
      rw [notIn, notBetween, notLike] at negates
      simp at negates

theorem reads_quantifier : Reads quantifier (Written.optional Written.quantifier) := by
  intro words
  apply (reads_eatKeyword .ANY words).begin
  intro any rest
  cases any with
  | true => exact .pure le_sup_left
  | false =>
      apply (reads_eatKeyword .SOME rest).begin
      intro some' rest
      cases some' with
      | true => exact .pure le_sup_right
      | false =>
          apply (reads_eatKeyword .ALL rest).begin
          intro all rest
          cases all with
          | true => exact .pure le_rfl
          | false => exact .pure le_rfl

section Inside

variable {rules : Rules} (faithful : rules.Faithful)
include faithful

/-- The statement fills the bracket. -/
theorem reads_bracketedStatement (label : String) :
    Reads (bracketedStatement rules label) fun statement =>
      Written.bracket statement.written := by
  intro words
  apply Takes.bracketed
  intro opening contents
  apply Spans.startsStatement
  intro starts
  cases starts with
  | true =>
      apply (exhausts_wholeStatement faithful _).spans.last
      intro statement
      rw [one_mul]
      exact Written.le_inside (one_mul _).le
  | false => exact .refuse _

/-- The condition fills the bracket. -/
theorem reads_bracketedCondition : Reads (bracketedCondition rules) Phrase.written := by
  intro words
  apply Takes.bracketed
  intro opening contents
  apply Spans.look
  apply Spans.startsStatement
  intro starts
  cases contents.isEmpty || starts with
  | true => exact .refuse _
  | false =>
      apply (Exhausts.wholly (faithful.condition contents)).begin
      intro condition
      exact .ended (Written.le_inside (one_mul _).le)

/-- Behind `IN`. -/
theorem takes_membership (column : Column) (negated : Bool) (words : Words) :
    Takes (column.written * Written.flagged (Written.keyword .NOT) negated * Written.keyword .IN)
      (membership rules column negated) words Phrase.written := by
  apply Takes.bracketed
  intro opening contents
  apply Spans.startsStatement
  intro starts
  cases starts with
  | true =>
      apply (exhausts_wholeStatement faithful contents).begin
      intro statement
      exact .ended (Written.le_inside le_rfl)
  | false =>
      apply spans_someColumns faithful (fun _ => .failAt _ _)
      intro first others
      apply Spans.ended
      apply Written.le_inside
      rw [one_mul]
      exact le_rfl

/-- Behind the left side of a comparison. -/
theorem takes_comparison (left : Column) (words : Words) :
    Takes left.written (comparison rules left) words Phrase.written := by
  apply Takes.ahead
  rcases words with _ | ⟨word, rest⟩
  · exact .look (.fail _)
  · simp only [List.head?_cons, Option.bind_some]
    cases isOperator : orderOperator? word.kind with
    | none => exact .look (.fail _)
    | some operator =>
        apply Takes.bind (Takes.word (orderOperator? ·.kind = some operator) isOperator)
        intro _ rest
        apply (reads_quantifier rest).bind
        intro quantifier rest
        cases quantifier with
        | none =>
            apply (faithful.column rest).bind
            intro right rest
            apply Takes.pure
            rw [Written.optional, mul_one]
            exact le_rfl
        | some quantifier =>
            apply (reads_bracketedStatement faithful _ rest).bind
            intro statement rest
            exact .pure le_rfl

/-- Each predicate is written behind its left side. -/
theorem reads_predicate : Reads (predicate rules) Phrase.written := by
  intro words
  apply (reads_column faithful words).begin
  intro left behind
  apply (reads_negation behind).bindWith
  intro scope negated rest readNegation
  apply (reads_eatKeyword .IN rest).bindWith
  intro _ isIn rest readIn
  cases isIn with
  | true => exact takes_membership faithful left negated rest
  | false =>
      obtain ⟨rfl, notIn⟩ := eat_false readIn
      rw [Written.flagged, mul_one]
      apply (reads_eatKeyword .BETWEEN rest).bindWith
      intro _ between rest readBetween
      cases between with
      | true =>
          apply (faithful.column rest).bind
          intro lower rest
          apply (reads_expectKeyword .AND rest).bind
          intro _ rest
          exact (faithful.column rest).bind fun upper rest => .pure le_rfl
      | false =>
          obtain ⟨rfl, notBetween⟩ := eat_false readBetween
          rw [Written.flagged, mul_one]
          apply (reads_eatKeyword .LIKE rest).bindWith
          intro _ like rest readLike
          cases like with
          | true => exact (faithful.column rest).bind fun right rest => .pure le_rfl
          | false =>
              obtain ⟨rfl, notLike⟩ := eat_false readLike
              obtain rfl := negation_eq_false readNegation notIn notBetween notLike
              rw [Written.flagged, Written.flagged, mul_one, mul_one]
              apply (reads_eatKeyword .IS rest).bind
              intro is rest
              cases is with
              | false =>
                  rw [Written.flagged, mul_one]
                  exact takes_comparison faithful left rest
              | true =>
                  apply (reads_eatKeyword .NOT rest).bind
                  intro absent rest
                  exact (reads_expectKeyword .NULL rest).bind fun _ rest => .pure le_rfl

/-- An attempt that is given up has taken nothing, so the predicate is written from the bracket on.
-/
theorem reads_plainTerm : Reads (plainTerm rules) Phrase.written := by
  intro words
  apply (reads_eatKeyword .NOT words).begin
  intro isNot rest
  cases isNot with
  | true => exact (faithful.term rest).nested.bind fun term rest => .pure le_rfl
  | false =>
      apply (reads_eatKeyword .EXISTS rest).begin
      intro exists' rest
      cases exists' with
      | true =>
          apply (reads_bracketedStatement faithful _ rest).bind
          intro statement rest
          exact .pure le_rfl
      | false =>
          apply Takes.checked
          cases rest.head?.any (·.kind == .leftParen) with
          | false => exact reads_predicate faithful rest
          | true =>
              apply (reads_bracketedCondition faithful rest).attempt.begin
              intro found rest
              cases found with
              | none => exact reads_predicate faithful rest
              | some term => exact .pure le_rfl

theorem reads_term : Reads (term rules) Phrase.written := by
  intro words
  apply Takes.begin (Takes.hooked rfl)
  intro found rest
  cases found with
  | none => exact reads_plainTerm faithful rest
  | some term => exact .pure le_rfl

/-- A connective and its term, or nothing. -/
theorem reads_link : Reads (link rules) (Written.optional Phrase.written) := by
  intro words
  apply Takes.ahead
  rcases words with _ | ⟨word, rest⟩
  · exact .pure le_rfl
  · simp only [List.head?_cons, Option.bind_some]
    cases isOperator : logicOperator? word.kind with
    | none => exact .pure le_rfl
    | some operator =>
        apply (Takes.word (logicOperator? ·.kind = some operator) isOperator).begin
        intro _ rest
        exact (reads_term faithful rest).committed.bind fun term rest => .pure le_rfl

theorem reads_condition : Reads (condition rules) Phrase.written := by
  intro words
  apply (reads_term faithful words).begin
  intro left rest
  apply (reads_many (reads_link faithful) rest).bind
  intro links rest
  rw [← Written.written_ofList]
  exact .pure le_rfl

end Inside

end Grammar

end SelectTree
