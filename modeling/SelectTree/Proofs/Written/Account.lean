/-
Module: SelectTree.Proofs.Written.Account
Purpose: what can be said of words between two turns and the nodes that they may come from.
Main exports: TokenKind.isQuiet, Account, Account.Covers

An account gives for a run of nodes the words that it may come from.  It knows what is next in front
of the words and behind them, and it takes words together when these agree.  An account that does
not look at turns gives the same words for all of them.
-/
import SelectTree.Proofs.Parse.Shape
import SelectTree.Proofs.Written.Rule
import SelectTree.Proofs.Written.Turn

namespace SelectTree

/-- A word that no constant, sign, operator or bracket begins with and no denied keyword or hint
list either.  Every account takes it in anywhere. -/
def TokenKind.isQuiet : TokenKind → Bool
  | .integer _ | .decimal _ | .string _ | .nationalString _ | .variable _ | .minus
  | .leftParen | .rightParen => false
  | .keyword word => !word.isDenied && word != .OPTION
  | _ => true

/-- A node that no words of its own belong to but quiet ones. -/
def Node.isPlain : Node → Bool
  | .column (.literal _) | .column (.variable _) | .column (.negated _)
  | .column (.cast _ _ _) | .column (.convert _ _ _ _) | .column (.parse _ _ _ _)
  | .element (.arithmeticOperation _ _) | .element (.optionHints _)
  | .element (.window _ _ _ _ _) => false
  | _ => true

/-- Behind a quiet word. -/
def Turn.past? (turn : Turn) (kind : TokenKind) : Option Turn :=
  match kind.isQuiet with
  | true => some (turn.behind kind)
  | false => none

/-- Only quiet words are passed, and they move on as any word of their kind does. -/
theorem Turn.past?_eq_some_iff {turn next : Turn} {kind : TokenKind} :
    turn.past? kind = some next ↔ kind.isQuiet = true ∧ turn.behind kind = next := by
  unfold past?
  split <;> simp_all

/-- Behind the frame of a window, if there is one. -/
def Turn.behindFrame (turn : Turn) : Option Frame → Turn
  | none => turn
  | some _ => .operator

namespace Written

/-- A language in which words may be put together has the lists of its words. -/
theorem list_le {whole lead separator : Language Word} {items : List (Language Word)}
    (nothing : 1 ≤ whole) (append : whole * whole ≤ whole) (leads : lead ≤ whole)
    (separates : separator ≤ whole) (within : ∀ item ∈ items, item ≤ whole) :
    list lead separator items ≤ whole := by
  induction items generalizing lead with
  | nil => exact nothing
  | cons item items ih =>
      have first := le_trans (mul_le_mul' leads (within item List.mem_cons_self)) append
      have others := ih separates fun other member => within other (List.mem_cons_of_mem _ member)
      exact le_trans (mul_le_mul' first others) append

/-! ### Items that words bear out -/

/-- Words that bear all of these items out. -/
def bearing {α : Type} (bears : Words → α → Prop) (items : List α) : Language Word :=
  {words | ∀ item ∈ items, bears words item}

section Bearing

variable {α : Type} {bears : Words → α → Prop} {items others : List α}
  {language other : Language Word}

theorem le_bearing_nil : language ≤ bearing bears [] :=
  fun _ _ => nofun

/-- What bears out two lists bears out both together. -/
theorem le_bearing_append (some : language ≤ bearing bears items)
    (more : language ≤ bearing bears others) : language ≤ bearing bears (items ++ others) := by
  intro words member item isItem
  exact (List.mem_append.1 isItem).elim (some member item) (more member item)

/-- More words in front take nothing away. -/
theorem le_bearing_behind
    (mono : ∀ (words whole : Words) item, words <:+: whole → bears words item → bears whole item)
    (bearsOut : language ≤ bearing bears items) : other * language ≤ bearing bears items := by
  rintro _ ⟨front, -, words, member, rfl⟩ item isItem
  exact mono words _ item (List.suffix_append front words).isInfix (bearsOut member item isItem)

/-- More words behind take nothing away. -/
theorem le_bearing_before
    (mono : ∀ (words whole : Words) item, words <:+: whole → bears words item → bears whole item)
    (bearsOut : language ≤ bearing bears items) : language * other ≤ bearing bears items := by
  rintro _ ⟨words, member, behind, -, rfl⟩ item isItem
  exact mono words _ item (List.prefix_append words behind).isInfix (bearsOut member item isItem)

end Bearing

/-! ### Quiet words of the grammar -/

/-- A keyword that can stand for a name is quiet. -/
theorem isQuiet_of_not_isReserved {keyword : Keyword} (free : keyword.isReserved = false) :
    (TokenKind.keyword keyword).isQuiet = true := by
  cases keyword <;> first | rfl | cases free

/-- A keyword that may name a function is neither denied nor in front of hints. -/
theorem isQuiet_of_isFunction {keyword : Keyword} (isFunction : keyword.isFunction = true) :
    (TokenKind.keyword keyword).isQuiet = true := by
  cases keyword <;> first | rfl | cases isFunction

/-- A keyword as the name of a function is quiet, and the call ends as an operand does. -/
theorem ended_behind_of_isFunction {keyword : Keyword} (isFunction : keyword.isFunction = true) :
    (Turn.operand.behind (.keyword keyword)).ended = .operator := by
  cases keyword <;> first | rfl | cases isFunction

/-- A name is quiet, also if it is a keyword. -/
theorem isQuiet_of_identifier? {word : Word} {name : Identifier}
    (named : word.identifier? = some name) : word.kind.isQuiet = true := by
  obtain ⟨kind, text, glued, index⟩ := word
  cases kind with
  | keyword keyword =>
      cases reserved : keyword.isReserved with
      | true => simp [Word.identifier?, reserved] at named
      | false => exact isQuiet_of_not_isReserved reserved
  | _ => first | rfl | cases named

/-- Where an operand may begin, a name is one. -/
theorem past?_of_identifier? {word : Word} {name : Identifier}
    (named : word.identifier? = some name) : Turn.operand.past? word.kind = some .operator := by
  obtain ⟨kind, text, glued, index⟩ := word
  cases kind with
  | keyword keyword =>
      cases reserved : keyword.isReserved with
      | true => simp [Word.identifier?, reserved] at named
      | false => cases keyword <;> first | rfl | cases reserved
  | _ => first | rfl | cases named

/-- An alias stands behind an operand and leaves an operator to come. -/
theorem past?_of_bareAlias? {word : Word} {name : Identifier}
    (named : Parser.bareAlias? word = some name) :
    Turn.operator.past? word.kind = some .operator := by
  obtain ⟨kind, text, glued, index⟩ := word
  cases kind <;> first | rfl | cases named

/-- An operator that compares is in front of an operand. -/
theorem past?_of_orderOperator? {turn : Turn} {kind : TokenKind} {operator : OrderOperator}
    (isOperator : Grammar.orderOperator? kind = some operator) :
    turn.past? kind = some .operand := by
  cases kind <;> first | rfl | cases isOperator

/-- A connective is in front of an operand. -/
theorem past?_of_logicOperator? {turn : Turn} {kind : TokenKind} {operator : LogicOperator}
    (isOperator : Grammar.logicOperator? kind = some operator) :
    turn.past? kind = some .operand := by
  unfold Grammar.logicOperator? at isOperator
  split at isOperator <;> first | rfl | cases isOperator

/-- A frame is written in words and bounds, and ends with a bound. -/
theorem frame_le {of : Turn → Turn → Language Word} (nothing : ∀ turn, 1 ≤ of turn turn)
    (append : ∀ first middle last, of first middle * of middle last ≤ of first last)
    (word : ∀ turn next isKind, turn.past? isKind = some next → kind isKind ≤ of turn next)
    (bound : ∀ turn isBound, frameBound isBound ≤ of turn .operator) (turn : Turn)
    (bounds : Option Frame) : frame bounds ≤ of turn (turn.behindFrame bounds) := by
  have both {first middle last : Turn} {language other : Language Word}
      (front : language ≤ of first middle) (behind : other ≤ of middle last) :
      language * other ≤ of first last :=
    le_trans (mul_le_mul' front behind) (append _ _ _)
  have unit (isUnit : FrameUnit) : ∃ middle, frameUnit isUnit ≤ of turn middle := by
    cases isUnit <;> exact ⟨_, word _ _ _ rfl⟩
  cases bounds with
  | none => exact nothing turn
  | some bounds =>
      rintro words (⟨isUnit, lower, upper, -, member⟩ | ⟨isUnit, single, -, member⟩)
      · obtain ⟨middle, begins⟩ := unit isUnit
        have between : keyword .BETWEEN ≤ of middle .operand := word middle _ _ rfl
        have and : keyword .AND ≤ of .operator .operand := word .operator _ _ rfl
        exact both (both (both (both begins between) (bound _ lower)) and) (bound _ upper) member
      · obtain ⟨middle, begins⟩ := unit isUnit
        exact both begins (bound middle single) member

end Written

open Written

/-- For each run of nodes the words that it may come from, between what is next in front of them and
what is next behind them. -/
structure Account where
  of : Turn → Turn → List Node → Language Word
  nothing (turn : Turn) : 1 ≤ of turn turn []
  append (first middle last : Turn) (nodes others : List Node) :
    of first middle nodes * of middle last others ≤ of first last (nodes ++ others)
  word (turn next : Turn) (isKind : TokenKind) :
    turn.past? isKind = some next → kind isKind ≤ of turn next []
  bracket (turn last : Turn) (nodes : List Node) :
    Written.bracket (of .operand last nodes) ≤ of turn turn.ended nodes
  plain (turn : Turn) (node : Node) : node.isPlain = true → 1 ≤ of turn turn [node]
  literal (value : Literal) :
    Written.literal value ≤ of .operand .operator [.column (.literal value)]
  counted (value : Literal) :
    one (Grammar.constant? ·.kind = some value) ≤ of .count .operand [.column (.literal value)]
  parameter (turn : Turn) (name : String) :
    kind (.variable name) ≤ of turn turn.ended [.column (.variable name)]
  negated (nodes : List Node) (operand : Slot) :
    kind .minus * (of .operand .operator nodes ⊓ begun (negated? · = none)) ≤
      of .operand .operator (nodes ++ [.column (.negated operand)])
  operation (operator : ArithmeticOperator) (nodes : List Node) (operand : Slot) :
    arithmeticOperator operator * of .operand .operator nodes ≤
      of .operator .operator (nodes ++ [.element (.arithmeticOperation operator operand)])
  cast (lenient : Bool) (nodes : List Node) (value : Slot) (type : Verbatim) :
    called (.cast lenient) *
        Written.bracket (of .operand .operator nodes * keyword .AS * verbatim type) ≤
      of .operand .operator (nodes ++ [.column (.cast value type.text lenient)])
  convert (lenient : Bool) (type : Verbatim) (nodes others : List Node) (value style : Slot) :
    called (.convert lenient) *
        Written.bracket (verbatim type * comma * of .operand .operator nodes *
          of .operator .operator others) ≤
      of .operand .operator
        (nodes ++ (others ++ [.column (.convert type.text value style lenient)]))
  parse (lenient : Bool) (nodes : List Node) (value : Slot) (type : Verbatim) :
    called (.parse lenient) *
        Written.bracket (of .operand .operator nodes * keyword .AS * verbatim type) ≤
      of .operand .operator (nodes ++ [.column (.parse value type.text none lenient)])
  parseUsing (lenient : Bool) (nodes others : List Node) (value : Slot) (type : Verbatim)
    (culture : Slot) :
    called (.parse lenient) *
        Written.bracket (of .operand .operator nodes * keyword .AS * verbatim type *
          (keyword .USING * of .operand .operator others)) ≤
      of .operand .operator
        (nodes ++ (others ++ [.column (.parse value type.text culture lenient)]))
  window (turn : Turn) (partitionBy orderBy : List Slot) (bounds : Option Frame) :
    frame bounds ≤ of turn (turn.behindFrame bounds)
      [.element (.window partitionBy orderBy (bounds.map Frame.unit) (bounds.bind Frame.lower)
        (bounds.bind Frame.upper))]
  stringAlias (called : Identifier) : Written.stringAlias called ≤ of .operator .operator []
  hints (turn : Turn) (first : Verbatim) (others : List Verbatim) :
    keyword .OPTION * Written.bracket (verbatim first * list comma comma (others.map verbatim) *
      maybe comma) ≤
      of turn .operator [.element (.optionHints ((first :: others).map Verbatim.text))]

namespace Account

/-! ### Words that no node stands for -/

section Words

variable {account : Account} {first middle last turn : Turn} {language other : Language Word}

/-- Words without nodes of their own are put behind each other where the turns agree. -/
theorem mul_le (front : language ≤ account.of first middle [])
    (behind : other ≤ account.of middle last []) : language * other ≤ account.of first last [] :=
  le_trans (mul_le_mul' front behind) (account.append first middle last [] [])

/-- One word of a class. -/
theorem one_le {isMember : Word → Prop}
    (passes : ∀ word, isMember word → turn.past? word.kind = some last) :
    one isMember ≤ account.of turn last [] := by
  rintro _ ⟨word, found, rfl⟩
  exact account.word turn last word.kind (passes word found) (mem_kind rfl)

/-- A quiet word belongs to no node. -/
theorem kind_le {isKind : TokenKind} (passes : turn.past? isKind = some last) :
    kind isKind ≤ account.of turn last [] :=
  account.word turn last isKind passes

theorem keyword_le {isKeyword : Keyword} (passes : turn.past? (.keyword isKeyword) = some last) :
    keyword isKeyword ≤ account.of turn last [] :=
  kind_le passes

theorem comma_le : comma ≤ account.of turn .operand [] :=
  kind_le rfl

theorem flagged_le (within : language ≤ account.of turn turn []) (flag : Bool) :
    flagged language flag ≤ account.of turn turn [] := by
  cases flag with
  | true => exact within
  | false => exact account.nothing turn

theorem maybe_le (within : language ≤ account.of turn turn []) :
    maybe language ≤ account.of turn turn [] :=
  sup_le (account.nothing turn) within

/-- A keyword that may be missing, if what follows it does not depend on it. -/
theorem maybe_mul_le {isKeyword : Keyword} (passes : turn.past? (.keyword isKeyword) = some middle)
    (behind : ∀ turn, other ≤ account.of turn last []) :
    maybe (keyword isKeyword) * other ≤ account.of turn last [] := by
  rw [maybe, add_mul, one_mul]
  exact sup_le (behind turn) (mul_le (keyword_le passes) (behind middle))

/-- Brackets begin with an operand and end as what is in front of them says. -/
theorem bracket_le (inner : language ≤ account.of .operand last []) :
    Written.bracket language ≤ account.of turn turn.ended [] :=
  le_trans (bracket_mono inner) (account.bracket turn last [])

/-- Items behind one another, each with something in front of it. -/
theorem list_le {separator : Language Word} {items : List (Language Word)}
    (separates : separator ≤ account.of .operator .operand [])
    (within : ∀ item ∈ items, item ≤ account.of .operand .operator []) :
    list separator separator items ≤ account.of .operator .operator [] := by
  induction items with
  | nil => exact account.nothing _
  | cons item items ih =>
      exact mul_le (mul_le separates (within item List.mem_cons_self))
        (ih fun other member => within other (List.mem_cons_of_mem _ member))

theorem name_le (identifier : Identifier) : name identifier ≤ account.of .operand .operator [] :=
  one_le fun _ => past?_of_identifier?

/-- Names with something between any two. -/
theorem names_le {separator : Language Word}
    (separates : separator ≤ account.of .operator .operand []) {parts : List Identifier}
    (some : parts ≠ []) : list 1 separator (parts.map name) ≤ account.of .operand .operator [] := by
  obtain ⟨part, parts, rfl⟩ := List.exists_cons_of_ne_nil some
  rw [List.map_cons, list, one_mul]
  exact mul_le (name_le part)
    (list_le separates (List.forall_mem_map.2 fun part _ => name_le part))

/-- A dotted name is an operand from its first part on. -/
theorem path_le {parts : List Identifier} (some : parts ≠ []) :
    path parts ≤ account.of .operand .operator [] :=
  names_le (kind_le rfl) some

/-- The name of a special call is an operand, though a bracket follows. -/
theorem called_le (call : Grammar.SpecialCall) :
    called call ≤ account.of .operand .operator [] :=
  one_le fun _ ⟨_, named, _⟩ => past?_of_identifier? named

/-- An alias that is no string. -/
theorem aliasName_false_le (called : Identifier) :
    aliasName false called ≤ account.of .operator .operator [] := by
  refine sup_le (sup_le ?_ ?_) bot_le
  · exact mul_le (keyword_le rfl) (name_le called)
  · exact one_le fun _ => past?_of_bareAlias?

/-- An alias stands behind an operand, with or without `AS`. -/
theorem aliased_false_le (called : Option Identifier) :
    aliased false called ≤ account.of .operator .operator [] := by
  cases called with
  | none => exact account.nothing _
  | some called => exact aliasName_false_le called

/-- An alias, a string too. -/
theorem aliased_true_le (called : Option Identifier) :
    aliased true called ≤ account.of .operator .operator [] := by
  cases called with
  | none => exact account.nothing _
  | some called =>
      have noString : aliasName false called ≤ account.of .operator .operator [] :=
        aliasName_false_le called
      rw [aliasName, if_neg Bool.false_ne_true, add_zero] at noString
      exact sup_le noString (account.stringAlias called)

theorem orderOperator_le (operator : OrderOperator) :
    orderOperator operator ≤ account.of turn .operand [] :=
  one_le fun _ => past?_of_orderOperator?

theorem logicOperator_le (operator : LogicOperator) :
    logicOperator operator ≤ account.of turn .operand [] :=
  one_le fun _ => past?_of_logicOperator?

theorem quantifier_le (quantity : Quantifier) :
    quantifier quantity ≤ account.of turn .operand [] := by
  cases quantity with
  | any => exact sup_le (keyword_le rfl) (keyword_le rfl)
  | all => exact keyword_le rfl

theorem groupingFunction_le (function : GroupingFunction) :
    groupingFunction function ≤ account.of .operand .operator [] := by
  cases function <;> exact keyword_le rfl

/-- What a block begins with. -/
theorem connective_le {chained : Bool} (link : Connective chained) :
    connective link * keyword .SELECT ≤ account.of turn .operand [] := by
  have select {turn : Turn} : keyword .SELECT ≤ account.of turn .operand [] := keyword_le rfl
  cases link with
  | start =>
      rw [connective, one_mul]
      exact select
  | chained operator =>
      cases operator with
      | unionAll => exact mul_le (mul_le (keyword_le rfl) (keyword_le rfl)) select
      | _ => exact mul_le (keyword_le rfl) select

/-- The keywords of a join are quiet, and the source behind them is like an operand. -/
theorem joinType_le (type : JoinType) : joinType type ≤ account.of turn .operand [] := by
  have join {turn : Turn} : keyword .JOIN ≤ account.of turn .operand [] := keyword_le rfl
  have side {isKeyword : Keyword} (begins : keyword isKeyword ≤ account.of turn .operand []) :
      keyword isKeyword * maybe (keyword .OUTER) * keyword .JOIN ≤
        account.of turn .operand [] := by
    rw [mul_assoc]
    exact mul_le begins (maybe_mul_le rfl fun _ => join)
  cases type with
  | inner => exact sup_le join (mul_le (keyword_le rfl) join)
  | left => exact side (keyword_le rfl)
  | right => exact side (keyword_le rfl)
  | full => exact side (keyword_le rfl)
  | cross => exact mul_le (keyword_le rfl) join
  | crossApply => exact mul_le (keyword_le rfl) (keyword_le rfl)
  | outerApply => exact mul_le (keyword_le rfl) (keyword_le rfl)

theorem collation_le (name : Option String) :
    collation name ≤ account.of .operator .operator [] := by
  cases name with
  | none => exact account.nothing _
  | some name => exact mul_le (keyword_le rfl) (kind_le rfl)

theorem sortDirection_le (direction : SortDirection) :
    sortDirection direction ≤ account.of .operator .operator [] := by
  cases direction with
  | asc => exact maybe_le (keyword_le rfl)
  | desc => exact keyword_le rfl

theorem rowsWord_le : rowsWord ≤ account.of .operator .operator [] :=
  sup_le (keyword_le rfl) (keyword_le rfl)

/-- `DISTINCT` and `ALL` are in front of the columns, where an operand is next. -/
theorem distinctions_le : distinctions ≤ account.of .operand .operand [] := by
  intro words all
  induction words with
  | nil => exact account.nothing _ Language.nil_mem_one
  | cons word words ih =>
      have first : one (fun word => word.kind = .keyword .DISTINCT ∨ word.kind = .keyword .ALL) ≤
          account.of .operand .operand [] := by
        apply one_le
        rintro word (isKeyword | isKeyword) <;> rw [isKeyword] <;> rfl
      have others := ih fun other member => all other (List.mem_cons_of_mem _ member)
      exact mul_le first le_rfl
        (Language.append_mem_mul (mem_one (all word List.mem_cons_self)) others)

end Words

/-! ### Layouts and the words they come from -/

variable (account : Account) {α β : Type}

/-- The words may be what the nodes of a layout come from, wherever the layout begins. -/
def Covers (first last : Turn) (language : Language Word) (layout : Layout α) : Prop :=
  ∀ start, language ≤ account.of first last (layout.run start).2

variable {account}

namespace Covers

variable {first middle final turn : Turn} {language other : Language Word} {layout : Layout α}
  {next : α → Layout β}

/-- There are no nodes. -/
theorem pure {value : α} (within : language ≤ account.of first final []) :
    account.Covers first final language (Pure.pure value : Layout α) :=
  fun _ => within

/-- Words and nodes are put behind each other where the turns agree. -/
theorem bind (front : account.Covers first middle language layout)
    (behind : ∀ value, account.Covers middle final other (next value)) :
    account.Covers first final (language * other) (layout >>= next) := by
  intro start
  rw [Layout.run_bind]
  exact le_trans (mul_le_mul' (front start) (behind _ _)) (account.append _ _ _ _ _)

/-- Nothing is written for the nodes at the end. -/
theorem last (front : account.Covers first final language layout)
    (behind : ∀ value, account.Covers final final 1 (next value)) :
    account.Covers first final language (layout >>= next) := by
  rw [← mul_one language]
  exact front.bind behind

/-- Words in front that no node stands for. -/
theorem behind (front : other ≤ account.of first middle [])
    (covers : account.Covers middle final language layout) :
    account.Covers first final (other * language) layout :=
  fun start => le_trans (mul_le_mul' front (covers start)) (account.append _ _ _ [] _)

/-- Words at the end that no node stands for. -/
theorem before (covers : account.Covers first middle language layout)
    (ends : other ≤ account.of middle final []) :
    account.Covers first final (language * other) layout := by
  intro start
  have both := le_trans (mul_le_mul' (covers start) ends) (account.append _ _ _ _ [])
  rwa [List.append_nil] at both

theorem keyword {isKeyword : Keyword} (passes : first.past? (.keyword isKeyword) = some middle)
    (covers : account.Covers middle final language layout) :
    account.Covers first final (Written.keyword isKeyword * language) layout :=
  covers.behind (keyword_le passes)

/-- A `NOT` that may stand in front of another keyword. -/
theorem unlessNot {isKeyword : Keyword} (negated : Bool)
    (passes : ∀ turn : Turn, turn.past? (.keyword isKeyword) = some middle)
    (covers : account.Covers middle final language layout) :
    account.Covers first final
      (flagged (Written.keyword .NOT) negated * (Written.keyword isKeyword * language)) layout := by
  cases negated with
  | true => exact keyword rfl (covers.keyword (passes _))
  | false =>
      rw [flagged, one_mul]
      exact covers.keyword (passes first)

/-- A word of a class in front, if what follows it does not depend on it. -/
theorem anyOne {isMember : Word → Prop} (quietly : ∀ word, isMember word → word.kind.isQuiet = true)
    (covers : ∀ turn, account.Covers turn final language layout) :
    account.Covers first final (one isMember * language) layout := by
  rintro start _ ⟨_, ⟨word, found, rfl⟩, words, member, rfl⟩
  have passes : first.past? word.kind = some _ :=
    Turn.past?_eq_some_iff.2 ⟨quietly word found, rfl⟩
  exact account.append first _ final [] _ (Language.append_mem_mul
    (account.word first _ word.kind passes (mem_kind rfl)) (covers _ start member))

/-- Brackets, whatever is next at the end of them. -/
theorem bracket (final : Turn) (ends : turn.ended = middle)
    (covers : account.Covers .operand final language layout) :
    account.Covers turn middle (Written.bracket language) layout :=
  fun start => ends ▸ le_trans (bracket_mono (covers start)) (account.bracket turn final _)

/-- A plain node, with words that no node stands for. -/
theorem emit {node : Node} (isPlain : node.isPlain = true)
    (unread : language ≤ account.of first final []) :
    account.Covers first final language (Layout.emit node) := by
  intro start
  rw [← mul_one language]
  exact le_trans (mul_le_mul' unread (account.plain final node isPlain))
    (account.append _ _ _ [] [node])

/-- A plain node alone. -/
theorem node {node : Node} (isPlain : node.isPlain = true) :
    account.Covers turn turn 1 (Layout.emit node) :=
  emit isPlain (account.nothing turn)

/-- The modifiers around the words of the layout. -/
theorem modifiers {distinct : Bool} (covers : account.Covers .operand .operand language layout) :
    account.Covers .operand .operand (Written.modifiers language distinct) layout := by
  rintro start _ ⟨before, isBefore, middle, isMiddle, after, isAfter, -, rfl⟩
  exact (covers.behind distinctions_le).before distinctions_le start
    ⟨_, ⟨before, isBefore, middle, isMiddle, rfl⟩, after, isAfter, rfl⟩

/-- What a layout is called does not matter to its nodes. -/
theorem map {convert : α → β} (covers : account.Covers first final language layout) :
    account.Covers first final language (convert <$> layout) := by
  intro start
  rw [Layout.run_map]
  exact covers start

end Covers

end Account

end SelectTree
