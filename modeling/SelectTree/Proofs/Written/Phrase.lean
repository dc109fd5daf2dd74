/-
Module: SelectTree.Proofs.Written.Phrase
Purpose: how a phrase may be written, as a language over words.
Main exports: Written.one, Written.list, Phrase.written, Perhaps.written, Phrases.written,
  Phrase.written_le_begun

There is one production for each constructor of phrases.  It says where keywords, commas and
brackets stand and that every part of the phrase is written in its place; it does not say how the
words are found.
-/
import Mathlib.Computability.Language
import Mathlib.Order.CompletePartialOrder
import Mathlib.Order.ConditionallyCompleteLattice.Basic
import SelectTree.Grammar.Statement
import SelectTree.Proofs.Words.Balance

namespace SelectTree

namespace Written

open Grammar

/-- One word of a class. -/
def one (isMember : Word → Prop) : Language Word :=
  {words | ∃ word, isMember word ∧ words = [word]}

/-- One word of a kind. -/
def kind (kind : TokenKind) : Language Word :=
  one (·.kind = kind)

def keyword (keyword : Keyword) : Language Word :=
  kind (.keyword keyword)

def comma : Language Word :=
  kind .comma

/-- Something in brackets. -/
def bracket (inner : Language Word) : Language Word :=
  kind .leftParen * inner * kind .rightParen

/-- Words the first of which is of such a kind. -/
def begun (isFirst : TokenKind → Prop) : Language Word :=
  {words | ∃ word more, words = word :: more ∧ isFirst word.kind}

/-- Something that is written exactly if a flag is set. -/
def flagged (language : Language Word) : Bool → Language Word
  | true => language
  | false => 1

/-- Something that may be missing. -/
def maybe (language : Language Word) : Language Word :=
  1 + language

/-- Items one behind the other, with something in front of the first and between any two. -/
def list (lead separator : Language Word) : List (Language Word) → Language Word
  | [] => 1
  | item :: items => lead * item * list separator separator items

/-- Words with this text, one space for each gap, which close every bracket that they open and no
other. -/
def verbatim (text : Verbatim) : Language Word :=
  {words | Words.Balanced words ∧ Words.text words = text.text}

/-! ### Names -/

/-- A word that can stand for a name. -/
def name (name : Identifier) : Language Word :=
  one (·.identifier? = some name)

/-- A name of several parts, with dots between them. -/
def path (parts : List Identifier) : Language Word :=
  list 1 (kind .dot) (parts.map name)

/-- The name of a scalar function; some keywords are such names. -/
def functionName (parts : List Identifier) : Language Word :=
  path parts + one fun word =>
    ∃ keyword, word.kind = .keyword keyword ∧ keyword.isFunction ∧ parts = [.plain word.text]

/-- The name that begins a special call. -/
def called (call : SpecialCall) : Language Word :=
  one fun word => ∃ name, word.identifier? = some name ∧ specialCall? [name] = some call

/-- `AS` and a string, as an alias. -/
def stringAlias (name : Identifier) : Language Word :=
  keyword .AS * one (Parser.stringName? · = some name)

/-- An alias, which may be a string where strings may be names. -/
def aliasName (allowString : Bool) (called : Identifier) : Language Word :=
  keyword .AS * name called + one (Parser.bareAlias? · = some called) +
    (if allowString then stringAlias called else 0)

/-- An alias that may be missing. -/
def aliased (allowString : Bool) : Option Identifier → Language Word
  | none => 1
  | some called => aliasName allowString called

/-! ### Constants and operators -/

/-- The constant that a number makes behind a minus sign. -/
def negated? : TokenKind → Option Literal
  | .integer value => some (.integer (-value))
  | .decimal text => some (.decimal ("-" ++ text))
  | _ => none

/-- A tag and a quoted text in braces. -/
def temporal (value : Literal) : Language Word :=
  {words | ∃ tag text form, temporalForm? tag.toLower = some form ∧
    Temporal.read form text = .ok value ∧
    words ∈ kind .leftBrace * kind (.identifier tag) * kind (.string text) * kind .rightBrace}

/-- A constant of one word, with a sign or in braces. -/
def literal (value : Literal) : Language Word :=
  one (constant? ·.kind = some value) + kind .minus * one (negated? ·.kind = some value) +
    temporal value

def arithmeticOperator (operator : ArithmeticOperator) : Language Word :=
  one (arithmeticOperator? ·.kind = some operator)

def orderOperator (operator : OrderOperator) : Language Word :=
  one (orderOperator? ·.kind = some operator)

def logicOperator (operator : LogicOperator) : Language Word :=
  one (logicOperator? ·.kind = some operator)

def quantifier : Quantifier → Language Word
  | .any => keyword .ANY + keyword .SOME
  | .all => keyword .ALL

def groupingFunction : GroupingFunction → Language Word
  | .rollup => keyword .ROLLUP
  | .cube => keyword .CUBE

def setOperator : SetOperator → Language Word
  | .union => keyword .UNION
  | .unionAll => keyword .UNION * keyword .ALL
  | .intersect => keyword .INTERSECT
  | .except => keyword .EXCEPT

/-- What stands in front of a block. -/
def connective : {chained : Bool} → Connective chained → Language Word
  | _, .start => 1
  | _, .chained operator => setOperator operator

def joinType : JoinType → Language Word
  | .inner => keyword .JOIN + keyword .INNER * keyword .JOIN
  | .left => keyword .LEFT * maybe (keyword .OUTER) * keyword .JOIN
  | .right => keyword .RIGHT * maybe (keyword .OUTER) * keyword .JOIN
  | .full => keyword .FULL * maybe (keyword .OUTER) * keyword .JOIN
  | .cross => keyword .CROSS * keyword .JOIN
  | .crossApply => keyword .CROSS * keyword .APPLY
  | .outerApply => keyword .OUTER * keyword .APPLY

/-! ### Parts of clauses -/

def collation : Option String → Language Word
  | none => 1
  | some name => keyword .COLLATE * kind (.identifier name)

def sortDirection : SortDirection → Language Word
  | .asc => maybe (keyword .ASC)
  | .desc => keyword .DESC

def frameSide : FrameSide → Language Word
  | .preceding => keyword .PRECEDING
  | .following => keyword .FOLLOWING

def frameBound : FrameBound → Language Word
  | .unbounded side => keyword .UNBOUNDED * frameSide side
  | .currentRow => keyword .CURRENT * keyword .ROW
  | .offset count side => kind (.integer count) * frameSide side

def frameUnit : FrameUnit → Language Word
  | .rows => keyword .ROWS
  | .range => keyword .RANGE

/-- The window frames of two bounds or of one that are this frame. -/
def frame : Option Frame → Language Word
  | none => 1
  | some frame =>
      {words | (∃ unit lower upper, frame = .between unit lower upper ∧
          words ∈ frameUnit unit * keyword .BETWEEN * frameBound lower * keyword .AND *
            frameBound upper) ∨
        ∃ unit bound, frame = .single unit bound ∧ words ∈ frameUnit unit * frameBound bound}

/-- Whether the last of some words is `DISTINCT`. -/
def endsDistinct (words : Words) : Bool :=
  words.getLast?.any (·.isKeyword .DISTINCT)

/-- Words that are all `DISTINCT` or `ALL`. -/
def distinctions : Language Word :=
  {words | ∀ word ∈ words, word.kind = .keyword .DISTINCT ∨ word.kind = .keyword .ALL}

/-- The modifiers of a select block: of `DISTINCT` and `ALL` the last one counts, and they may
stand on both sides of `TOP`. -/
def modifiers (top : Language Word) (distinct : Bool) : Language Word :=
  {words | ∃ before ∈ distinctions, ∃ middle ∈ top, ∃ after ∈ distinctions,
    endsDistinct (before ++ after) = distinct ∧ words = before ++ middle ++ after}

def rowsWord : Language Word :=
  keyword .ROW + keyword .ROWS

end Written

open Written in
mutual

/-- The ways to write a phrase. -/
@[simp] def Phrase.written : {form : Form} → Phrase form → Language Word
  | _, .literal value => literal value
  | _, .null => keyword .NULL
  | _, .star none => kind .star
  | _, .star (some table) => name table * kind .dot * kind .star
  | _, .variable name => kind (.variable name)
  | _, .reference none column => name column
  | _, .reference (some table) column => path [table, column]
  | _, .function name arguments => functionName name.parts * bracket (arguments.written 1 comma)
  | _, .aggregation function distinct first others =>
      called (.aggregation function) *
        bracket ((if distinct then keyword .DISTINCT else maybe (keyword .ALL)) * first.written *
          others.written comma comma)
  | _, .cast lenient value type =>
      called (.cast lenient) * bracket (value.written * keyword .AS * verbatim type)
  | _, .convert lenient type value style =>
      called (.convert lenient) *
        bracket (verbatim type * comma * value.written * style.written comma 1)
  | _, .parse lenient value type culture =>
      called (.parse lenient) *
        bracket (value.written * keyword .AS * verbatim type * culture.written (keyword .USING) 1)
  | _, .iif condition value otherwise =>
      called .iif * bracket (condition.written * comma * value.written * comma * otherwise.written)
  | _, .searchedCase first others otherwise =>
      keyword .CASE * first.written * others.written 1 1 * otherwise.written (keyword .ELSE) 1 *
        keyword .END
  | _, .simpleCase operand first others otherwise =>
      keyword .CASE * operand.written * first.written * others.written 1 1 *
        otherwise.written (keyword .ELSE) 1 * keyword .END
  | _, .bracketedColumn inner => bracket inner.written
  | _, .subselect statement => bracket statement.written
  -- A number behind the sign would take it.
  | _, .negated operand => kind .minus * (operand.written ⊓ begun (negated? · = none))
  | _, .column left operations window =>
      left.written * operations.written 1 1 * window.written 1 1
  | _, .operation operator operand => arithmeticOperator operator * operand.written
  | _, .searchedBranch condition result =>
      keyword .WHEN * condition.written * keyword .THEN * result.written
  | _, .simpleBranch value result =>
      keyword .WHEN * value.written * keyword .THEN * result.written
  | _, .window partitionBy orderBy bounds =>
      keyword .OVER *
        bracket (partitionBy.written (keyword .PARTITION * keyword .BY) comma *
          orderBy.written (keyword .ORDER * keyword .BY) comma * frame bounds)
  | _, .orderItem column name direction =>
      column.written * collation name * sortDirection direction
  | _, .condition left links => left.written * links.written 1 1
  | _, .link operator term => logicOperator operator * term.written
  | _, .comparison left operator right => left.written * orderOperator operator * right.written
  | _, .like left negated right =>
      left.written * flagged (keyword .NOT) negated * keyword .LIKE * right.written
  | _, .setComparison left operator quantity statement =>
      left.written * orderOperator operator * quantifier quantity * bracket statement.written
  | _, .inList column negated first others =>
      column.written * flagged (keyword .NOT) negated * keyword .IN *
        bracket (first.written * others.written comma comma)
  | _, .inSelect column negated statement =>
      column.written * flagged (keyword .NOT) negated * keyword .IN * bracket statement.written
  | _, .between column negated lower upper =>
      column.written * flagged (keyword .NOT) negated * keyword .BETWEEN * lower.written *
        keyword .AND * upper.written
  | _, .isNull column negated =>
      column.written * keyword .IS * flagged (keyword .NOT) negated * keyword .NULL
  | _, .exists statement => keyword .EXISTS * bracket statement.written
  | _, .not term => keyword .NOT * term.written
  | _, .bracketedCondition inner => bracket inner.written
  | _, .relation left joins => left.written * joins.written 1 1
  | _, .joinOn type _ source condition =>
      joinType type * source.written * keyword .ON * condition.written
  | _, .joinFree type _ source => joinType type * source.written
  | _, .table name called => path name.parts * aliased false called
  | _, .bracketedRelation inner => bracket inner.written
  | _, .derived statement called => bracket statement.written * aliasName false called
  | _, .selectColumn column called => column.written * aliased true called
  | _, .top count percent withTies =>
      keyword .TOP * (count.written ⊓ begun (Grammar.startsCount · = true)) *
        flagged (keyword .PERCENT) percent * flagged (keyword .WITH * keyword .TIES) withTies
  | _, .pivot aggregation pivotColumn first others called =>
      keyword .PIVOT *
        bracket (aggregation.written * keyword .FOR * pivotColumn.written * keyword .IN *
          bracket (first.written * others.written comma comma)) *
        aliasName false called
  | _, .groupingSets first others =>
      keyword .GROUP * keyword .BY * keyword .GROUPING * keyword .SETS *
        bracket (first.written * others.written comma comma)
  | _, .groupList first others =>
      keyword .GROUP * keyword .BY * first.written * others.written comma comma
  | _, .columnSet columns => bracket (columns.written 1 comma) + columns.alone
  | _, .functionSet function first others =>
      groupingFunction function * bracket (first.written * others.written comma comma)
  | _, .functionGroup set => set.written
  | _, .plainElement column => column.written
  | _, .functionElement set => set.written
  | _, .orderBy first others offset fetch =>
      keyword .ORDER * keyword .BY * first.written * others.written comma comma *
        offset.written (keyword .OFFSET) rowsWord *
        fetch.written (keyword .FETCH * (keyword .NEXT + keyword .FIRST)) (rowsWord * keyword .ONLY)
  | _, .optionHints first others =>
      keyword .OPTION *
        bracket (verbatim first * list comma comma (others.map verbatim) * maybe comma)
  | _, .block link top distinct first others sources pivot filter groupBy having =>
      connective link * keyword .SELECT * modifiers (top.written 1 1) distinct * first.written *
        others.written comma comma * sources.written (keyword .FROM) comma * pivot.written 1 1 *
        filter.written (keyword .WHERE) 1 * groupBy.written 1 1 * having.written (keyword .HAVING) 1
  | _, .cte called columns statement =>
      name called *
        (if columns.isEmpty then 1 else bracket (list 1 comma (columns.map name))) *
        keyword .AS * bracket statement.written
  | _, .statement ctes first others orderBy options =>
      ctes.written (keyword .WITH) comma * first.written * others.written 1 1 *
        orderBy.written 1 1 * options.written 1 1

/-- The ways to write a phrase that may be missing, with something in front of it and behind it. -/
@[simp] def Perhaps.written :
    {form : Form} → Perhaps form → Language Word → Language Word → Language Word
  | _, .absent, _, _ => 1
  | _, .present phrase, lead, tail => lead * phrase.written * tail

/-- The ways to write phrases one behind the other, with something in front of the first and between
any two. -/
@[simp] def Phrases.written :
    {form : Form} → Phrases form → Language Word → Language Word → Language Word
  | _, .nil, _, _ => 1
  | _, .cons first others, lead, separator =>
      lead * first.written * others.written separator separator

/-- The ways to write the only one of some phrases. -/
@[simp] def Phrases.alone : {form : Form} → Phrases form → Language Word
  | _, .cons first .nil => first.written
  | _, _ => 0

end

/-! ### The first word of an operand -/

namespace Written

variable {language other : Language Word} {isFirst : TokenKind → Prop}

/-- How something begins is decided by its first part. -/
theorem begun_mul (begins : language ≤ begun isFirst) : language * other ≤ begun isFirst := by
  rintro _ ⟨words, member, behind, -, rfl⟩
  obtain ⟨word, more, rfl, first⟩ := begins member
  exact ⟨word, more ++ behind, rfl, first⟩

theorem one_le_begun {isMember : Word → Prop}
    (begins : ∀ word, isMember word → isFirst word.kind) : one isMember ≤ begun isFirst := by
  rintro _ ⟨word, member, rfl⟩
  exact ⟨word, [], rfl, begins word member⟩

theorem kind_le_begun {isKind : TokenKind} (begins : isFirst isKind) :
    kind isKind ≤ begun isFirst :=
  one_le_begun fun _ same => same ▸ begins

/-- A name does not begin a count behind `TOP`. -/
theorem startsCount_of_identifier? {word : Word} {name : Identifier}
    (named : word.identifier? = some name) : Grammar.startsCount word.kind = false := by
  obtain ⟨kind, text, glued, index⟩ := word
  cases kind <;> first | rfl | cases named

/-- The name of a special call is a name, so it does not begin a count. -/
theorem called_le_begun (call : Grammar.SpecialCall) :
    called call ≤ begun (Grammar.startsCount · = false) :=
  one_le_begun fun _ ⟨_, named, _⟩ => startsCount_of_identifier? named

theorem path_le_begun {parts : List Identifier} (some : parts ≠ []) :
    path parts ≤ begun (Grammar.startsCount · = false) := by
  obtain ⟨part, parts, rfl⟩ := List.exists_cons_of_ne_nil some
  rw [path, List.map_cons, list, one_mul]
  exact begun_mul (one_le_begun fun _ => startsCount_of_identifier?)

theorem functionName_le_begun {parts : List Identifier} (some : parts ≠ []) :
    functionName parts ≤ begun (Grammar.startsCount · = false) := by
  refine sup_le (path_le_begun some) (one_le_begun ?_)
  rintro word ⟨keyword, isKeyword, -⟩
  rw [isKeyword]
  rfl

/-- Brackets begin with some word, whatever they hold. -/
theorem bracket_le_begun : bracket language ≤ begun fun _ => True :=
  begun_mul (begun_mul (kind_le_begun trivial))

/-- A constant is not empty: it begins with some word. -/
theorem literal_le_begun (value : Literal) : literal value ≤ begun fun _ => True := by
  refine sup_le (sup_le ?_ ?_) ?_
  · exact one_le_begun fun _ _ => trivial
  · exact begun_mul (kind_le_begun trivial)
  · rintro words ⟨tag, text, form, -, -, member⟩
    exact begun_mul (begun_mul (begun_mul (kind_le_begun trivial))) member

end Written

open Written

/-- The operand may stand behind `TOP`. -/
def Phrase.isCount : Phrase .operand → Bool
  | .literal _ | .variable _ | .bracketedColumn _ | .subselect _ => true
  | _ => false

/-- An operand that is no count does not begin like one. -/
theorem Phrase.written_le_of_not_isCount (operand : Phrase .operand)
    (other : operand.isCount = false) :
    operand.written ≤ begun (Grammar.startsCount · = false) := by
  cases operand with
  | literal | «variable» | bracketedColumn | subselect => cases other
  | null => exact kind_le_begun rfl
  | star table =>
      cases table with
      | none => exact kind_le_begun rfl
      | some table => exact begun_mul (begun_mul (one_le_begun fun _ => startsCount_of_identifier?))
  | reference table column =>
      cases table with
      | none => exact one_le_begun fun _ => startsCount_of_identifier?
      | some table => exact path_le_begun (List.cons_ne_nil _ _)
  | function name => exact begun_mul (functionName_le_begun name.parts_ne_nil)
  | aggregation | cast | convert | parse | iif => exact begun_mul (called_le_begun _)
  | searchedCase => exact begun_mul (begun_mul (begun_mul (begun_mul (kind_le_begun rfl))))
  | simpleCase =>
      exact begun_mul (begun_mul (begun_mul (begun_mul (begun_mul (kind_le_begun rfl)))))
  | negated => exact begun_mul (kind_le_begun rfl)

/-- An operand has a word. -/
theorem Phrase.written_le_begun (operand : Phrase .operand) :
    operand.written ≤ begun fun _ => True := by
  cases isCount : operand.isCount with
  | false =>
      intro words member
      obtain ⟨word, more, rfl, -⟩ := operand.written_le_of_not_isCount isCount member
      exact ⟨word, more, rfl, trivial⟩
  | true =>
      cases operand with
      | literal value => exact literal_le_begun value
      | «variable» => exact kind_le_begun trivial
      | bracketedColumn | subselect => exact bracket_le_begun
      | _ => cases isCount

end SelectTree
