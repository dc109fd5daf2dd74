/-
Module: SelectTree.Proofs.Written.Covered
Purpose: what is written for a phrase is among the words that its nodes may come from.
Main exports: Form.Begins, Form.ends, Phrase.covers, Tree.nodes, words_mem_of_parse

An account says it of the words and nodes that mean something to it.  For every other phrase it
follows from the parts of the phrase, so there is one induction for all accounts.
-/
import SelectTree.Proofs.Written.Account

namespace SelectTree

open Written Layout Account

/-- A phrase of the form may begin here.  Where only reserved keywords begin one, it may begin
anywhere. -/
def Form.Begins : Form → Turn → Prop
  | .operand | .column | .orderItem | .condition | .term | .relation | .source | .selectColumn
  | .groupingSet | .functionSet | .groupElement => (· = .operand)
  | .operation => (· = .operator)
  | _ => fun _ => True

/-- What is next behind a phrase of the form. -/
def Form.ends : Form → Turn
  | .top => .operand
  | _ => .operator

/-- What is next behind phrases of one form. -/
def Phrases.ends {form : Form} (first : Turn) : Phrases form → Turn
  | .nil => first
  | .cons _ _ => form.ends

namespace Account

variable (account : Account) {form : Form}

/-- What is written for the phrase is among the words that its nodes may come from. -/
def CoversPhrase (phrase : Phrase form) : Prop :=
  ∀ ⦃turn : Turn⦄, form.Begins turn →
    account.Covers turn form.ends phrase.written phrase.layout

/-- The same for a phrase that may be missing. -/
def CoversPerhaps (perhaps : Perhaps form) : Prop :=
  ∀ ⦃turn begins : Turn⦄ ⦃lead tail : Language Word⦄, lead ≤ account.of turn begins [] →
    form.Begins begins → tail ≤ account.of form.ends turn [] →
    account.Covers turn turn (perhaps.written lead tail) perhaps.layout

/-- The same for phrases behind one another. -/
def CoversPhrases (phrases : Phrases form) : Prop :=
  ∀ ⦃first begins next : Turn⦄ ⦃lead separator : Language Word⦄,
    lead ≤ account.of first begins [] → form.Begins begins →
    separator ≤ account.of form.ends next [] → form.Begins next →
    account.Covers first (phrases.ends first) (phrases.written lead separator) phrases.layout

/-- The same for the only one of some phrases. -/
def CoversAlone (phrases : Phrases form) : Prop :=
  ∀ ⦃turn : Turn⦄, form.Begins turn → account.Covers turn form.ends phrases.alone phrases.layout

/-- The same for an operand behind `TOP`, which must begin like a count. -/
def CoversCount (count : Phrase .operand) : Prop :=
  account.Covers .count .operand (count.written ⊓ begun (Grammar.startsCount · = true)) count.layout

variable {account}

/-- A phrase that begins only where an operand may begin. -/
theorem CoversPhrase.of_operand {phrase : Phrase form} (only : form.Begins = (· = .operand))
    (covers : account.Covers .operand form.ends phrase.written phrase.layout) :
    account.CoversPhrase phrase := by
  intro turn begins
  rw [only] at begins
  obtain rfl := begins
  exact covers

/-- Further phrases, each with something in front of it. -/
theorem CoversPhrases.others {phrases : Phrases form} (covers : account.CoversPhrases phrases)
    {begins : Turn} {lead separator : Language Word}
    (leads : lead ≤ account.of form.ends begins [])
    (separates : separator ≤ account.of form.ends begins []) (isBegin : form.Begins begins) :
    account.Covers form.ends form.ends (phrases.written lead separator) phrases.layout := by
  have same : phrases.ends form.ends = form.ends := by cases phrases <;> rfl
  have whole := covers leads isBegin separates isBegin
  rwa [same] at whole

/-- What is missing is neither written nor a node. -/
theorem coversPerhaps_absent : account.CoversPerhaps (Perhaps.absent : Perhaps form) :=
  fun _ _ _ _ _ _ _ => .pure (account.nothing _)

/-- What stands around a phrase must lead to where it may begin and on from where it ends. -/
theorem coversPerhaps_present {phrase : Phrase form} (covers : account.CoversPhrase phrase) :
    account.CoversPerhaps (.present phrase) :=
  fun _ _ _ _ leads begins ends =>
    (((covers begins).last fun _ => .pure (account.nothing _)).behind leads).before ends

theorem coversPhrases_nil : account.CoversPhrases (Phrases.nil : Phrases form) :=
  fun _ _ _ _ _ _ _ _ _ => .pure (account.nothing _)

/-- The first phrase stands behind the lead, and each other one behind a separator. -/
theorem coversPhrases_cons {first : Phrase form} {others : Phrases form}
    (covers : account.CoversPhrase first) (othersCover : account.CoversPhrases others) :
    account.CoversPhrases (.cons first others) := by
  intro _ _ _ lead separator leads begins separates begin
  rw [Phrases.written, mul_assoc]
  exact ((covers begins).bind fun _ => (othersCover.others separates separates begin).last
    fun _ => .pure (account.nothing _)).behind leads

/-! ### Operands -/

/-- A star where an operand may begin is one; it multiplies nothing. -/
theorem covers_star (table : Option Identifier) : account.CoversPhrase (.star table) := by
  refine .of_operand rfl ?_
  cases table with
  | none => exact .emit rfl (kind_le rfl)
  | some table => exact .emit rfl (mul_le (mul_le (name_le table) (kind_le rfl)) (kind_le rfl))

/-- A name is an operand, and so are two with a dot between them. -/
theorem covers_reference (table : Option Identifier) (column : Identifier) :
    account.CoversPhrase (.reference table column) := by
  refine .of_operand rfl ?_
  cases table with
  | none => exact .emit rfl (name_le column)
  | some table => exact .emit rfl (path_le (List.cons_ne_nil _ _))

/-- The arguments of a call are columns, with commas between them. -/
theorem covers_function {name : NamePath 2} {arguments : Phrases .column}
    (covers : account.CoversPhrases arguments) :
    account.CoversPhrase (.function name arguments) := by
  refine .of_operand rfl fun start => ?_
  have inner : account.Covers .operand (arguments.ends .operand) (arguments.written 1 comma)
      (Phrase.function name arguments).layout :=
    (covers (account.nothing _) rfl comma_le rfl).last fun _ => .node rfl
  have named : account.Covers .operand .operator
      (path name.parts * Written.bracket (arguments.written 1 comma))
      (Phrase.function name arguments).layout :=
    .behind (path_le name.parts_ne_nil) (inner.bracket _ rfl)
  rw [Phrase.written, functionName, add_mul]
  refine sup_le (named start) ?_
  -- A reserved keyword is no operand, but the brackets behind it end one all the same.
  rintro _ ⟨_, ⟨word, ⟨keyword, isKeyword, isFunction, -⟩, rfl⟩, words, member, rfl⟩
  have passes : Turn.operand.past? (.keyword keyword) = some _ :=
    Turn.past?_eq_some_iff.2 ⟨isQuiet_of_isFunction isFunction, rfl⟩
  have call := inner.bracket _ (ended_behind_of_isFunction isFunction)
  exact call.keyword passes start (Language.append_mem_mul (mem_kind isKeyword) member)

/-- Behind `DISTINCT` an operand is still to come. -/
theorem covers_aggregation {function : AggregateFunction} {distinct : Bool}
    {first : Phrase .column} {others : Phrases .column} (covers : account.CoversPhrase first)
    (othersCover : account.CoversPhrases others) :
    account.CoversPhrase (.aggregation function distinct first others) := by
  have modifier : (if distinct then keyword .DISTINCT else maybe (keyword .ALL)) ≤
      account.of .operand .operand [] := by
    cases distinct with
    | true => exact keyword_le rfl
    | false => exact maybe_le (keyword_le rfl)
  refine .of_operand rfl ?_
  rw [Phrase.written, mul_assoc]
  refine .behind (called_le _) (.bracket .operator rfl ?_)
  refine .behind modifier (.bind (covers rfl) fun _ => ?_)
  exact (othersCover.others comma_le comma_le rfl).last fun _ => .node rfl

/-- What a type as written means is for the account to say; the value is a column. -/
theorem covers_cast {lenient : Bool} {value : Phrase .column} {type : Verbatim}
    (covers : account.CoversPhrase value) : account.CoversPhrase (.cast lenient value type) := by
  refine .of_operand rfl fun start => le_trans (mul_le_mul' le_rfl (bracket_mono ?_))
    (account.cast lenient _ _ type)
  exact mul_le_mul' (mul_le_mul' (covers rfl start) le_rfl) le_rfl

/-- The type stands in front of the value here, so the account is asked about the words the other
way round. -/
theorem covers_convert {lenient : Bool} {type : Verbatim} {value : Phrase .column}
    {style : Perhaps .column} (covers : account.CoversPhrase value)
    (styleCovers : account.CoversPerhaps style) :
    account.CoversPhrase (.convert lenient type value style) := by
  refine .of_operand rfl fun start => le_trans (mul_le_mul' le_rfl (bracket_mono ?_))
    (account.convert lenient type _ _ _ _)
  exact mul_le_mul' (mul_le_mul' le_rfl (covers rfl start))
    (styleCovers comma_le rfl (account.nothing _) _)

/-- Without a culture, the type ends the brackets. -/
theorem covers_parse {lenient : Bool} {value : Phrase .column} {type : Verbatim}
    (covers : account.CoversPhrase value) :
    account.CoversPhrase (.parse lenient value type .absent) := by
  refine .of_operand rfl ?_
  rw [Phrase.written, Perhaps.written, mul_one]
  refine fun start => le_trans (mul_le_mul' le_rfl (bracket_mono ?_))
    (account.parse lenient _ _ type)
  exact mul_le_mul' (mul_le_mul' (covers rfl start) le_rfl) le_rfl

/-- With a culture, the type stands between two columns. -/
theorem covers_parseUsing {lenient : Bool} {value culture : Phrase .column} {type : Verbatim}
    (covers : account.CoversPhrase value) (cultureCovers : account.CoversPhrase culture) :
    account.CoversPhrase (.parse lenient value type (.present culture)) := by
  refine .of_operand rfl ?_
  rw [Phrase.written, Perhaps.written, mul_one]
  have inner : account.Covers .operand .operator culture.written (Perhaps.present culture).layout :=
    (cultureCovers rfl).last fun _ => .pure (account.nothing _)
  refine fun start => le_trans (mul_le_mul' le_rfl (bracket_mono ?_))
    (account.parseUsing lenient _ _ _ type _)
  exact mul_le_mul' (mul_le_mul' (mul_le_mul' (covers rfl start) le_rfl) le_rfl)
    (mul_le_mul' le_rfl (inner _))

/-- Behind each comma an operand is next. -/
theorem covers_iif {condition : Phrase .condition} {value otherwise : Phrase .column}
    (conditionCovers : account.CoversPhrase condition) (covers : account.CoversPhrase value)
    (otherwiseCovers : account.CoversPhrase otherwise) :
    account.CoversPhrase (.iif condition value otherwise) := by
  refine .of_operand rfl ?_
  rw [Phrase.written]
  simp only [mul_assoc]
  refine .behind (called_le _) (.bracket .operator rfl (.bind (conditionCovers rfl) fun _ => ?_))
  refine .behind comma_le (.bind (covers rfl) fun _ => ?_)
  exact .behind comma_le ((otherwiseCovers rfl).last fun _ => .node rfl)

/-- `WHEN`, `THEN` and `ELSE` are in front of an operand, and `END` ends one. -/
theorem covers_searchedCase {first : Phrase .searchedBranch} {others : Phrases .searchedBranch}
    {otherwise : Perhaps .column} (covers : account.CoversPhrase first)
    (othersCover : account.CoversPhrases others)
    (otherwiseCovers : account.CoversPerhaps otherwise) :
    account.CoversPhrase (.searchedCase first others otherwise) := by
  refine .of_operand rfl ?_
  rw [Phrase.written]
  simp only [mul_assoc]
  refine .keyword rfl (.bind (covers trivial) fun _ => ?_)
  refine .bind (othersCover.others (account.nothing _) (account.nothing _) trivial) fun _ => ?_
  refine .bind (otherwiseCovers (keyword_le rfl) rfl (account.nothing _)) fun _ => ?_
  exact .emit rfl (keyword_le rfl)

/-- The operand of the `CASE` stands in front of the branches. -/
theorem covers_simpleCase {operand : Phrase .column} {first : Phrase .simpleBranch}
    {others : Phrases .simpleBranch} {otherwise : Perhaps .column}
    (operandCovers : account.CoversPhrase operand) (covers : account.CoversPhrase first)
    (othersCover : account.CoversPhrases others)
    (otherwiseCovers : account.CoversPerhaps otherwise) :
    account.CoversPhrase (.simpleCase operand first others otherwise) := by
  refine .of_operand rfl ?_
  rw [Phrase.written]
  simp only [mul_assoc]
  refine .keyword rfl (.bind (operandCovers rfl) fun _ => .bind (covers trivial) fun _ => ?_)
  refine .bind (othersCover.others (account.nothing _) (account.nothing _) trivial) fun _ => ?_
  refine .bind (otherwiseCovers (keyword_le rfl) rfl (account.nothing _)) fun _ => ?_
  exact .emit rfl (keyword_le rfl)

/-- The minus sign stands where an operand may begin, so the account knows it as a sign. -/
theorem covers_negated {operand : Phrase .operand} (covers : account.CoversPhrase operand) :
    account.CoversPhrase (.negated operand) :=
  .of_operand rfl fun start =>
    le_trans (mul_le_mul' le_rfl (inf_le_inf_right _ (covers rfl start))) (account.negated _ _)

/-! ### Counts -/

/-- A number behind `TOP` is the whole count, and no other constant begins one. -/
theorem covers_count_literal (value : Literal) : account.CoversCount (.literal value) := by
  rintro start words ⟨isWritten, word, more, rfl, begins⟩
  rcases isWritten with
    (isConstant | ⟨_, ⟨sign, isSign, rfl⟩, _, -, same⟩) | ⟨_, _, _, -, -, member⟩
  · exact account.counted value isConstant
  · cases same
    rw [isSign] at begins
    cases begins
  · simp only [mul_assoc] at member
    obtain ⟨_, ⟨brace, isBrace, rfl⟩, _, -, same⟩ := member
    cases same
    rw [isBrace] at begins
    cases begins

theorem covers_count_variable (name : String) : account.CoversCount (.variable name) :=
  fun _ => le_trans inf_le_left (account.parameter .count name)

/-- Brackets behind `TOP` hold an operand, as all brackets do. -/
theorem covers_count_bracketedColumn {inner : Phrase .column}
    (covers : account.CoversPhrase inner) : account.CoversCount (.bracketedColumn inner) :=
  fun start => le_trans inf_le_left
    (Account.Covers.bracket _ rfl ((covers rfl).last fun _ => .node rfl) start)

theorem covers_count_subselect {statement : Phrase .statement}
    (covers : account.CoversPhrase statement) : account.CoversCount (.subselect statement) :=
  fun start => le_trans inf_le_left
    (Account.Covers.bracket _ rfl ((covers trivial).last fun _ => .node rfl) start)

/-- Other operands are no counts. -/
theorem covers_count_other {operand : Phrase .operand} (other : operand.isCount = false) :
    account.CoversCount operand := by
  rintro start words ⟨isWritten, word, more, rfl, begins⟩
  obtain ⟨_, _, same, otherwise⟩ := operand.written_le_of_not_isCount other isWritten
  cases same
  rw [begins] at otherwise
  cases otherwise

/-! ### Columns and windows -/

/-- A window behind a column.  The node of the column stands in front of those of the window, but
nothing is written for it there. -/
theorem covers_windowed {window : Perhaps .window} (covers : account.CoversPerhaps window)
    (run : NodeId) :
    account.Covers .operator .operator (window.written 1 1) (do
      let window ← window.layout
      if window.isNone then pure run
      else emit (.column (.windowed (some run) window))) := by
  refine (covers (account.nothing _) trivial (account.nothing _)).last fun window => ?_
  cases window with
  | none => exact .pure (account.nothing _)
  | some window => exact .node rfl

/-- Operations stand behind an operand, so a minus sign in front of one of them is an operator. -/
theorem covers_column {left : Phrase .operand} {operations : Phrases .operation}
    {window : Perhaps .window} (covers : account.CoversPhrase left)
    (operationsCover : account.CoversPhrases operations)
    (windowCovers : account.CoversPerhaps window) :
    account.CoversPhrase (.column left operations window) := by
  refine .of_operand rfl ?_
  rw [Phrase.written, mul_assoc]
  refine .bind (covers rfl) fun left => ?_
  refine .bind (operationsCover.others (account.nothing _) (account.nothing _) rfl)
    fun operations => ?_
  cases operations with
  | nil => exact covers_windowed windowCovers left
  | cons operation operations =>
      rw [← one_mul (window.written 1 1)]
      exact .bind (.node rfl) (covers_windowed windowCovers)

/-- Behind the operator an operand is next. -/
theorem covers_operation {operator : ArithmeticOperator} {operand : Phrase .operand}
    (covers : account.CoversPhrase operand) :
    account.CoversPhrase (.operation operator operand) := by
  rintro _ rfl start
  exact le_trans (mul_le_mul' le_rfl (covers rfl start)) (account.operation operator _ _)

theorem covers_searchedBranch {condition : Phrase .condition} {result : Phrase .column}
    (covers : account.CoversPhrase condition) (resultCovers : account.CoversPhrase result) :
    account.CoversPhrase (.searchedBranch condition result) := by
  intro turn _
  rw [Phrase.written]
  simp only [mul_assoc]
  refine .keyword rfl (.bind (covers rfl) fun _ => ?_)
  exact .keyword rfl ((resultCovers rfl).last fun _ => .node rfl)

theorem covers_simpleBranch {value result : Phrase .column}
    (covers : account.CoversPhrase value) (resultCovers : account.CoversPhrase result) :
    account.CoversPhrase (.simpleBranch value result) := by
  intro turn _
  rw [Phrase.written]
  simp only [mul_assoc]
  refine .keyword rfl (.bind (covers rfl) fun _ => ?_)
  exact .keyword rfl ((resultCovers rfl).last fun _ => .node rfl)

/-- Each list of a window is behind its keywords; the account looks at the frame itself. -/
theorem covers_window {partitionBy : Phrases .column} {orderBy : Phrases .orderItem}
    {bounds : Option Frame} (partitionCovers : account.CoversPhrases partitionBy)
    (orderCovers : account.CoversPhrases orderBy) :
    account.CoversPhrase (.window partitionBy orderBy bounds) := by
  intro turn _
  have partitioned : keyword .PARTITION * keyword .BY ≤ account.of .operand .operand [] :=
    mul_le (keyword_le rfl) (keyword_le rfl)
  have ordered {turn : Turn} : keyword .ORDER * keyword .BY ≤ account.of turn .operand [] :=
    mul_le (keyword_le rfl) (keyword_le rfl)
  rw [Phrase.written, mul_assoc (partitionBy.written _ _)]
  exact .keyword rfl (.bracket _ rfl (.bind (partitionCovers partitioned rfl comma_le rfl) fun _ =>
    .bind (orderCovers ordered rfl comma_le rfl) fun _ _ => account.window _ _ _ bounds))

/-- Behind a column, collation and direction are quiet words. -/
theorem covers_orderItem {column : Phrase .column} {name : Option String}
    {direction : SortDirection} (covers : account.CoversPhrase column) :
    account.CoversPhrase (.orderItem column name direction) := by
  refine .of_operand rfl ?_
  rw [Phrase.written, mul_assoc]
  exact .bind (covers rfl) fun _ =>
    .emit rfl (mul_le (collation_le name) (sortDirection_le direction))

/-! ### Conditions -/

/-- Each connective in front of a term makes an operand come next. -/
theorem covers_condition {left : Phrase .term} {links : Phrases .link}
    (covers : account.CoversPhrase left) (linksCover : account.CoversPhrases links) :
    account.CoversPhrase (.condition left links) := by
  refine .of_operand rfl (.bind (covers rfl) fun left => ?_)
  refine (linksCover.others (account.nothing _) (account.nothing _) trivial).last fun links => ?_
  cases links with
  | nil => exact .pure (account.nothing _)
  | cons link links => exact .node rfl

theorem covers_link {operator : LogicOperator} {term : Phrase .term}
    (covers : account.CoversPhrase term) : account.CoversPhrase (.link operator term) :=
  fun _ _ => .behind (logicOperator_le operator) ((covers rfl).last fun _ => .node rfl)

/-- The operator stands between two operands. -/
theorem covers_comparison {left right : Phrase .column} {operator : OrderOperator}
    (covers : account.CoversPhrase left) (rightCovers : account.CoversPhrase right) :
    account.CoversPhrase (.comparison left operator right) := by
  refine .of_operand rfl ?_
  rw [Phrase.written, mul_assoc]
  refine .bind (covers rfl) fun _ => .behind (orderOperator_le operator) ?_
  exact (rightCovers rfl).last fun _ => .node rfl

theorem covers_like {left right : Phrase .column} {negated : Bool}
    (covers : account.CoversPhrase left) (rightCovers : account.CoversPhrase right) :
    account.CoversPhrase (.like left negated right) := by
  refine .of_operand rfl ?_
  rw [Phrase.written]
  simp only [mul_assoc]
  refine .bind (covers rfl) fun _ => .unlessNot negated (fun _ => rfl) ?_
  exact (rightCovers rfl).last fun _ => .node rfl

/-- The statement stands in brackets, and has a node of its own. -/
theorem covers_setComparison {left : Phrase .column} {operator : OrderOperator}
    {quantity : Quantifier} {statement : Phrase .statement} (covers : account.CoversPhrase left)
    (statementCovers : account.CoversPhrase statement) :
    account.CoversPhrase (.setComparison left operator quantity statement) := by
  refine .of_operand rfl ?_
  rw [Phrase.written]
  simp only [mul_assoc]
  refine .bind (covers rfl) fun _ => .behind (orderOperator_le operator) ?_
  refine .behind (quantifier_le quantity) (.bracket .operator rfl ?_)
  exact (statementCovers trivial).last fun _ => Account.Covers.last (.node rfl) fun _ => .node rfl

/-- Values stand in brackets with commas between them. -/
theorem covers_inList {column first : Phrase .column} {negated : Bool}
    {others : Phrases .column} (covers : account.CoversPhrase column)
    (firstCovers : account.CoversPhrase first) (othersCover : account.CoversPhrases others) :
    account.CoversPhrase (.inList column negated first others) := by
  refine .of_operand rfl ?_
  rw [Phrase.written]
  simp only [mul_assoc]
  refine .bind (covers rfl) fun _ => .unlessNot negated (fun _ => rfl) (.bracket .operator rfl ?_)
  refine .bind (firstCovers rfl) fun _ => ?_
  exact (othersCover.others comma_le comma_le rfl).last fun _ => .node rfl

theorem covers_inSelect {column : Phrase .column} {negated : Bool}
    {statement : Phrase .statement} (covers : account.CoversPhrase column)
    (statementCovers : account.CoversPhrase statement) :
    account.CoversPhrase (.inSelect column negated statement) := by
  refine .of_operand rfl ?_
  rw [Phrase.written]
  simp only [mul_assoc]
  refine .bind (covers rfl) fun _ => .unlessNot negated (fun _ => rfl) (.bracket .operator rfl ?_)
  exact (statementCovers trivial).last fun _ => .node rfl

/-- The `AND` of a range is in front of an operand too. -/
theorem covers_between {column lower upper : Phrase .column} {negated : Bool}
    (covers : account.CoversPhrase column) (lowerCovers : account.CoversPhrase lower)
    (upperCovers : account.CoversPhrase upper) :
    account.CoversPhrase (.between column negated lower upper) := by
  refine .of_operand rfl ?_
  rw [Phrase.written]
  simp only [mul_assoc]
  refine .bind (covers rfl) fun _ => .unlessNot negated (fun _ => rfl) ?_
  refine .bind (lowerCovers rfl) fun _ => .keyword rfl ?_
  exact (upperCovers rfl).last fun _ => .node rfl

/-- `NULL` ends a predicate as an operand ends it. -/
theorem covers_isNull {column : Phrase .column} {negated : Bool}
    (covers : account.CoversPhrase column) : account.CoversPhrase (.isNull column negated) := by
  refine .of_operand rfl ?_
  rw [Phrase.written]
  simp only [mul_assoc]
  exact .bind (covers rfl) fun _ => .emit rfl
    (mul_le (keyword_le rfl) (mul_le (flagged_le (keyword_le rfl) negated) (keyword_le rfl)))

/-! ### Sources -/

/-- Joins stand behind a source, each behind its keywords. -/
theorem covers_relation {left : Phrase .source} {joins : Phrases .join}
    (covers : account.CoversPhrase left) (joinsCover : account.CoversPhrases joins) :
    account.CoversPhrase (.relation left joins) := by
  refine .of_operand rfl (.bind (covers rfl) fun left => ?_)
  refine (joinsCover.others (account.nothing _) (account.nothing _) trivial).last fun joins => ?_
  cases joins with
  | nil => exact .pure (account.nothing _)
  | cons join joins => exact .node rfl

/-- The condition stands behind `ON`. -/
theorem covers_joinOn {type : JoinType} {requires : type.requiresOn = true}
    {source : Phrase .source} {condition : Phrase .condition}
    (covers : account.CoversPhrase source) (conditionCovers : account.CoversPhrase condition) :
    account.CoversPhrase (.joinOn type requires source condition) := by
  intro turn _
  rw [Phrase.written]
  simp only [mul_assoc]
  refine .behind (joinType_le type) (.bind (covers rfl) fun _ => ?_)
  exact .keyword rfl ((conditionCovers rfl).last fun _ => .node rfl)

theorem covers_joinFree {type : JoinType} {free : type.requiresOn = false}
    {source : Phrase .source} (covers : account.CoversPhrase source) :
    account.CoversPhrase (.joinFree type free source) :=
  fun _ _ => .behind (joinType_le type) ((covers rfl).last fun _ => .node rfl)

/-! ### Clauses -/

/-- An alias is a name or a string and stands behind a column. -/
theorem covers_selectColumn {column : Phrase .column} {called : Option Identifier}
    (covers : account.CoversPhrase column) :
    account.CoversPhrase (.selectColumn column called) := by
  refine .of_operand rfl (.bind (covers rfl) fun _ => ?_)
  cases called with
  | none => exact .pure (account.nothing _)
  -- Here a string may be a name, which no node but the one with the alias stands for.
  | some called => exact .emit rfl (aliased_true_le (some called))

/-- The count of `TOP` is not followed by an operator: the next column may begin with a sign. -/
theorem covers_top {count : Phrase .operand} {percent withTies : Bool}
    (covers : account.CoversCount count) :
    account.CoversPhrase (.top count percent withTies) := by
  intro turn _
  rw [Phrase.written]
  simp only [mul_assoc]
  have ties : keyword .WITH * keyword .TIES ≤ account.of .operand .operand [] :=
    mul_le (keyword_le rfl) (keyword_le rfl)
  exact .keyword rfl (Account.Covers.bind covers fun _ =>
    .emit rfl (mul_le (flagged_le (keyword_le rfl) percent) (flagged_le ties withTies)))

/-- Behind the brackets the alias ends a pivot, as a name ends an operand. -/
theorem covers_pivot {aggregation pivotColumn first : Phrase .column} {others : Phrases .column}
    {called : Identifier} (aggregationCovers : account.CoversPhrase aggregation)
    (columnCovers : account.CoversPhrase pivotColumn) (firstCovers : account.CoversPhrase first)
    (othersCover : account.CoversPhrases others) :
    account.CoversPhrase (.pivot aggregation pivotColumn first others called) := by
  intro turn _
  rw [Phrase.written]
  simp only [mul_assoc]
  refine .keyword rfl (.before (.bracket .operator rfl ?_) (aliasName_false_le called))
  refine .bind (aggregationCovers rfl) fun _ => .keyword rfl ?_
  refine .bind (columnCovers rfl) fun _ => .keyword rfl (.bracket .operator rfl ?_)
  refine .bind (firstCovers rfl) fun _ => ?_
  exact (othersCover.others comma_le comma_le rfl).last fun _ => .node rfl

/-- The sets stand in brackets behind `GROUPING SETS`. -/
theorem covers_groupingSets {first : Phrase .groupingSet} {others : Phrases .groupingSet}
    (covers : account.CoversPhrase first) (othersCover : account.CoversPhrases others) :
    account.CoversPhrase (.groupingSets first others) := by
  intro turn _
  rw [Phrase.written]
  simp only [mul_assoc]
  refine .keyword rfl (.keyword rfl (.keyword rfl (.keyword rfl (.bracket .operator rfl ?_))))
  refine .bind (covers rfl) fun _ => ?_
  exact (othersCover.others comma_le comma_le rfl).last fun _ => .node rfl

/-- Only plain nodes are behind those of the elements: the set of the columns and the clause. -/
theorem covers_groupList {first : Phrase .groupElement} {others : Phrases .groupElement}
    (covers : account.CoversPhrase first) (othersCover : account.CoversPhrases others) :
    account.CoversPhrase (.groupList first others) := by
  intro turn _
  rw [Phrase.written]
  simp only [mul_assoc]
  refine .keyword rfl (.keyword rfl (.bind (covers rfl) fun firstId => ?_))
  refine (othersCover.others comma_le comma_le rfl).last fun otherIds => ?_
  dsimp only
  split
  · exact .last (.pure (account.nothing _)) fun _ => .node rfl
  · exact .last (.map (.node rfl)) fun _ => .node rfl

/-- A column alone needs no brackets. -/
theorem covers_columnSet {columns : Phrases .column} (covers : account.CoversPhrases columns)
    (alone : account.CoversAlone columns) :
    account.CoversPhrase (.columnSet columns) := by
  have commas := covers (account.nothing .operand) rfl comma_le rfl
  exact .of_operand rfl fun start =>
    sup_le (Account.Covers.bracket _ rfl (commas.last fun _ => .node rfl) start)
      (((alone rfl).last fun _ => .node rfl) start)

/-- Brackets behind a grouping function hold at least one column. -/
theorem covers_functionSet {function : GroupingFunction} {first : Phrase .column}
    {others : Phrases .column} (covers : account.CoversPhrase first)
    (othersCover : account.CoversPhrases others) :
    account.CoversPhrase (.functionSet function first others) := by
  refine .of_operand rfl (.behind (groupingFunction_le function) (.bracket .operator rfl ?_))
  refine .bind (covers rfl) fun _ => ?_
  exact (othersCover.others comma_le comma_le rfl).last fun _ => .node rfl

/-- Offset and fetch, if any, hold one column each between quiet words. -/
theorem covers_orderBy {first : Phrase .orderItem} {others : Phrases .orderItem}
    {offset fetch : Perhaps .column} (covers : account.CoversPhrase first)
    (othersCover : account.CoversPhrases others) (offsetCovers : account.CoversPerhaps offset)
    (fetchCovers : account.CoversPerhaps fetch) :
    account.CoversPhrase (.orderBy first others offset fetch) := by
  intro turn _
  have rowCount : keyword .FETCH * (keyword .NEXT + keyword .FIRST) ≤
      account.of .operator .operand [] :=
    mul_le (keyword_le rfl) (sup_le (keyword_le rfl) (keyword_le rfl))
  have only : rowsWord * keyword .ONLY ≤ account.of .operator .operator [] :=
    mul_le rowsWord_le (keyword_le rfl)
  rw [Phrase.written]
  simp only [mul_assoc]
  refine .keyword rfl (.keyword rfl (.bind (covers rfl) fun _ => ?_))
  refine .bind (othersCover.others comma_le comma_le rfl) fun _ => ?_
  refine .bind (offsetCovers (keyword_le rfl) rfl rowsWord_le) fun _ => ?_
  exact (fetchCovers rowCount rfl only).last fun _ => .node rfl

/-! ### Statements -/

/-- A block is its modifiers, its columns and its clauses, one behind the other. -/
theorem covers_block {chained : Bool} {link : Connective chained} {top : Perhaps .top}
    {distinct : Bool} {first : Phrase .selectColumn} {others : Phrases .selectColumn}
    {sources : Phrases .relation} {pivot : Perhaps .pivot} {filter : Perhaps .condition}
    {groupBy : Perhaps .groupBy} {having : Perhaps .condition}
    (topCovers : account.CoversPerhaps top) (covers : account.CoversPhrase first)
    (othersCover : account.CoversPhrases others) (sourcesCover : account.CoversPhrases sources)
    (pivotCovers : account.CoversPerhaps pivot) (filterCovers : account.CoversPerhaps filter)
    (groupByCovers : account.CoversPerhaps groupBy)
    (havingCovers : account.CoversPerhaps having) :
    account.CoversPhrase
      (.block link top distinct first others sources pivot filter groupBy having) := by
  intro turn _
  have modified : account.Covers .operand .operand (modifiers (top.written 1 1) distinct)
      top.layout :=
    .modifiers (topCovers (account.nothing _) trivial (account.nothing _))
  rw [Phrase.written]
  simp only [mul_assoc]
  rw [← mul_assoc (connective link)]
  refine .behind (connective_le link) (.bind modified fun _ => .bind (covers rfl) fun _ => ?_)
  refine .bind (othersCover.others comma_le comma_le rfl) fun _ => ?_
  refine .bind (sourcesCover.others (keyword_le rfl) comma_le rfl) fun _ => ?_
  refine .bind (pivotCovers (account.nothing _) trivial (account.nothing _)) fun _ => ?_
  refine .bind (filterCovers (keyword_le rfl) rfl (account.nothing _)) fun _ => ?_
  refine .bind (groupByCovers (account.nothing _) trivial (account.nothing _)) fun _ => ?_
  exact (havingCovers (keyword_le rfl) rfl (account.nothing _)).last fun _ => .node rfl

/-- The names of columns behind the name of a table. -/
theorem covers_columnNames {columns : List Identifier} {language : Language Word} {α : Type}
    {layout : Layout α} {last : Turn}
    (covers : ∀ turn, account.Covers turn last language layout) (turn : Turn) :
    account.Covers turn last
      ((if columns.isEmpty then 1 else Written.bracket (list 1 comma (columns.map name))) *
        language)
      layout := by
  split
  · rw [one_mul]
    exact covers turn
  · next some =>
      have named : list 1 comma (columns.map name) ≤ account.of .operand .operator [] :=
        names_le comma_le fun none => some (List.isEmpty_iff.2 none)
      exact (covers _).behind (bracket_le named)

/-- Names and keywords are in front of the statement, which stands in brackets. -/
theorem covers_cte {called : Identifier} {columns : List Identifier}
    {statement : Phrase .statement} (covers : account.CoversPhrase statement) :
    account.CoversPhrase (.cte called columns statement) := by
  intro turn _
  rw [Phrase.written]
  simp only [mul_assoc]
  refine .anyOne (fun _ => isQuiet_of_identifier?) (covers_columnNames fun _ => ?_)
  exact .keyword rfl (.bracket _ rfl ((covers trivial).last fun _ => .node rfl))

/-- A statement is what `WITH` introduces, its blocks and its last two clauses. -/
theorem covers_statement {ctes : Phrases .cte} {first : Phrase (.block false)}
    {others : Phrases (.block true)} {orderBy : Perhaps .orderBy} {options : Perhaps .optionHints}
    (ctesCover : account.CoversPhrases ctes) (covers : account.CoversPhrase first)
    (othersCover : account.CoversPhrases others) (orderByCovers : account.CoversPerhaps orderBy)
    (optionsCover : account.CoversPerhaps options) :
    account.CoversPhrase (.statement ctes first others orderBy options) := by
  intro turn _
  rw [Phrase.written]
  simp only [mul_assoc]
  refine .bind (ctesCover (keyword_le rfl) trivial comma_le trivial) fun _ => ?_
  refine .bind (covers trivial) fun _ => ?_
  refine .bind (othersCover.others (account.nothing _) (account.nothing _) trivial) fun _ => ?_
  refine .bind (orderByCovers (account.nothing _) trivial (account.nothing _)) fun _ => ?_
  exact (optionsCover (account.nothing _) trivial (account.nothing _)).last fun _ => .node rfl

end Account

section

variable (account : Account)

mutual

/-- What is written for a phrase is among the words that its nodes may come from. -/
theorem Phrase.covers : {form : Form} → (phrase : Phrase form) → account.CoversPhrase phrase
  | _, .literal value => .of_operand rfl fun _ => account.literal value
  | _, .null => .of_operand rfl (.emit rfl (keyword_le rfl))
  | _, .star table => covers_star table
  | _, .variable name => .of_operand rfl fun _ => account.parameter .operand name
  | _, .reference table column => covers_reference table column
  | _, .function _ arguments => covers_function arguments.covers
  | _, .aggregation _ _ first others => covers_aggregation first.covers others.covers
  | _, .cast _ value _ => covers_cast value.covers
  | _, .convert _ _ value style => covers_convert value.covers style.covers
  | _, .parse _ value _ .absent => covers_parse value.covers
  | _, .parse _ value _ (.present culture) => covers_parseUsing value.covers culture.covers
  | _, .iif condition value otherwise =>
      covers_iif condition.covers value.covers otherwise.covers
  | _, .searchedCase first others otherwise =>
      covers_searchedCase first.covers others.covers otherwise.covers
  | _, .simpleCase operand first others otherwise =>
      covers_simpleCase operand.covers first.covers others.covers otherwise.covers
  | _, .bracketedColumn inner =>
      .of_operand rfl (.bracket _ rfl ((inner.covers rfl).last fun _ => .node rfl))
  | _, .subselect statement =>
      .of_operand rfl (.bracket _ rfl ((statement.covers trivial).last fun _ => .node rfl))
  | _, .negated operand => covers_negated operand.covers
  | _, .column left operations window =>
      covers_column left.covers operations.covers window.covers
  | _, .operation _ operand => covers_operation operand.covers
  | _, .searchedBranch condition result =>
      covers_searchedBranch condition.covers result.covers
  | _, .simpleBranch value result => covers_simpleBranch value.covers result.covers
  | _, .window partitionBy orderBy _ => covers_window partitionBy.covers orderBy.covers
  | _, .orderItem column _ _ => covers_orderItem column.covers
  | _, .condition left links => covers_condition left.covers links.covers
  | _, .link _ term => covers_link term.covers
  | _, .comparison left _ right => covers_comparison left.covers right.covers
  | _, .like left _ right => covers_like left.covers right.covers
  | _, .setComparison left _ _ statement => covers_setComparison left.covers statement.covers
  | _, .inList column _ first others => covers_inList column.covers first.covers others.covers
  | _, .inSelect column _ statement => covers_inSelect column.covers statement.covers
  | _, .between column _ lower upper =>
      covers_between column.covers lower.covers upper.covers
  | _, .isNull column _ => covers_isNull column.covers
  | _, .exists statement => .of_operand rfl
      (.keyword rfl (.bracket _ rfl ((statement.covers trivial).last fun _ => .node rfl)))
  | _, .not term => .of_operand rfl (.keyword rfl ((term.covers rfl).last fun _ => .node rfl))
  | _, .bracketedCondition inner =>
      .of_operand rfl (.bracket _ rfl ((inner.covers rfl).last fun _ => .node rfl))
  | _, .relation left joins => covers_relation left.covers joins.covers
  | _, .joinOn _ _ source condition => covers_joinOn source.covers condition.covers
  | _, .joinFree _ _ source => covers_joinFree source.covers
  | _, .table name called =>
      .of_operand rfl (.emit rfl (mul_le (path_le name.parts_ne_nil) (aliased_false_le called)))
  | _, .bracketedRelation inner =>
      .of_operand rfl (.bracket _ rfl ((inner.covers rfl).last fun _ => .node rfl))
  | _, .derived statement called => .of_operand rfl (.before (.bracket _ rfl
      ((statement.covers trivial).last fun _ => .node rfl)) (aliasName_false_le called))
  | _, .selectColumn column _ => covers_selectColumn column.covers
  | _, .top (.literal value) _ _ => covers_top (covers_count_literal value)
  | _, .top (.variable name) _ _ => covers_top (covers_count_variable name)
  | _, .top (.bracketedColumn inner) _ _ => covers_top (covers_count_bracketedColumn inner.covers)
  | _, .top (.subselect statement) _ _ => covers_top (covers_count_subselect statement.covers)
  | _, .top .null _ _ | _, .top (.star _) _ _ | _, .top (.reference _ _) _ _
  | _, .top (.function _ _) _ _ | _, .top (.aggregation _ _ _ _) _ _ | _, .top (.cast _ _ _) _ _
  | _, .top (.convert _ _ _ _) _ _ | _, .top (.parse _ _ _ _) _ _ | _, .top (.iif _ _ _) _ _
  | _, .top (.searchedCase _ _ _) _ _ | _, .top (.simpleCase _ _ _ _) _ _
  | _, .top (.negated _) _ _ => covers_top (covers_count_other rfl)
  | _, .pivot aggregation pivotColumn first others _ =>
      covers_pivot aggregation.covers pivotColumn.covers first.covers others.covers
  | _, .groupingSets first others => covers_groupingSets first.covers others.covers
  | _, .groupList first others => covers_groupList first.covers others.covers
  | _, .columnSet columns => covers_columnSet columns.covers columns.coversAlone
  | _, .functionSet _ first others => covers_functionSet first.covers others.covers
  | _, .functionGroup set => set.covers
  | _, .plainElement column => column.covers
  | _, .functionElement set => set.covers
  | _, .orderBy first others offset fetch =>
      covers_orderBy first.covers others.covers offset.covers fetch.covers
  | _, .optionHints first others => fun turn _ _ => account.hints turn first others
  | _, .block _ top _ first others sources pivot filter groupBy having =>
      covers_block top.covers first.covers others.covers sources.covers pivot.covers filter.covers
        groupBy.covers having.covers
  | _, .cte _ _ statement => covers_cte statement.covers
  | _, .statement ctes first others orderBy options =>
      covers_statement ctes.covers first.covers others.covers orderBy.covers options.covers

/-- The same for a phrase that may be missing. -/
theorem Perhaps.covers : {form : Form} → (perhaps : Perhaps form) → account.CoversPerhaps perhaps
  | _, .absent => coversPerhaps_absent
  | _, .present phrase => coversPerhaps_present phrase.covers

/-- The same for phrases behind one another. -/
theorem Phrases.covers : {form : Form} → (phrases : Phrases form) → account.CoversPhrases phrases
  | _, .nil => coversPhrases_nil
  | _, .cons first others => coversPhrases_cons first.covers others.covers

/-- The same for the only one of some phrases. -/
theorem Phrases.coversAlone : {form : Form} → (phrases : Phrases form) →
    account.CoversAlone phrases
  | _, .nil => fun _ _ _ => bot_le
  | _, .cons first .nil => fun _ begins =>
      (first.covers begins).last fun _ => .pure (account.nothing _)
  | _, .cons _ (.cons _ _) => fun _ _ _ => bot_le

end

end

/-! ### Whole sources -/

/-- The nodes of a tree in the order of their numbers. -/
def Tree.nodes (tree : Tree) : List Node :=
  tree.entries.toList.map Entry.node

/-- The nodes of a tree, as a list, are found under their numbers. -/
theorem Tree.getElem?_nodes (tree : Tree) (index : Nat) :
    tree.nodes[index]? = tree.node? { index } := by
  simp [nodes, node?]

/-- Behind the root the tree of a phrase has the nodes of its layout. -/
theorem Phrase.nodes_tree {form : Form} (phrase : Phrase form) :
    phrase.tree.nodes =
      .root (some (phrase.layout.run 1).1) :: (phrase.layout.run 1).2 := by
  apply List.ext_getElem?
  intro index
  rw [Tree.getElem?_nodes, node?_tree]
  cases index with
  | zero => rfl
  | succ index => simp [NodeId.root]

/-- Every rule that sources are read by begins where an operand may begin. -/
theorem Form.begins_rule (entry : EntryPoint) : entry.rule.form.Begins .operand := by
  cases entry <;> first | rfl | trivial

/-- The words of an accepted source are words that the nodes of its tree may come from. -/
theorem words_mem_of_parse (account : Account) {entry : EntryPoint} {source : String}
    {options : Options} {tree : Tree} (parsed : parse entry source options {} = .ok tree) :
    ∃ last, (TokenStream.ofString source).words ∈ account.of .operand last tree.nodes := by
  obtain ⟨phrase, rfl, used, written, ending, isEnd, same⟩ := exists_written_of_parse parsed
  have rooted : 1 * account.of .operand entry.rule.form.ends (phrase.layout.run 1).2 ≤
      account.of .operand entry.rule.form.ends phrase.tree.nodes := by
    rw [phrase.nodes_tree]
    exact le_trans (mul_le_mul' (account.plain .operand _ rfl) le_rfl)
      (account.append _ _ _ [_] _)
  rw [one_mul] at rooted
  have covered := rooted (phrase.covers account (Form.begins_rule entry) 1 written)
  dsimp only at same
  rw [← same]
  rcases isEnd with isEnd | isEnd
  · rw [(Language.mem_one _).1 isEnd, List.append_nil]
    exact ⟨_, covered⟩
  · have semicolon : kind .semicolon ≤ account.of entry.rule.form.ends .operand [] := kind_le rfl
    have whole := account.append _ _ _ _ _ (Language.append_mem_mul covered (semicolon isEnd))
    rw [List.append_nil] at whole
    exact ⟨_, whole⟩

end SelectTree
