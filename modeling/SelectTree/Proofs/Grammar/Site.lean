/-
Module: SelectTree.Proofs.Grammar.Site
Purpose: places inside of a statement where another statement stands in brackets, and how it is read
  there.
Main exports: Site, Site.front, Site.back, Site.plug, Site.read_plug, Site.read_filtered
-/
import SelectTree.Proofs.Grammar.Reading

namespace SelectTree

/-- A place in a statement for another one in brackets, with the constant and the name that stand
around it. -/
inductive Site where
  /-- Written `SELECT (statement)`. -/
  | subselect
  /-- Written `SELECT count WHERE name IN (statement)`. -/
  | membership (count : Int) (name : String)
  /-- Written `SELECT count WHERE EXISTS (statement)`. -/
  | existence (count : Int)
  /-- Written `SELECT count FROM (statement) name`. -/
  | derived (count : Int) (name : String)
  /-- Written `WITH name AS (statement) SELECT count`. -/
  | cte (name : String) (count : Int)
deriving Repr, DecidableEq

namespace Site

/-- The kinds of the words before the place. -/
def front : Site → List TokenKind
  | .subselect => [.keyword .SELECT, .leftParen]
  | .membership count name =>
      [.keyword .SELECT, .integer count, .keyword .WHERE, .identifier name, .keyword .IN,
        .leftParen]
  | .existence count =>
      [.keyword .SELECT, .integer count, .keyword .WHERE, .keyword .EXISTS, .leftParen]
  | .derived count _ => [.keyword .SELECT, .integer count, .keyword .FROM, .leftParen]
  | .cte name _ => [.keyword .WITH, .identifier name, .keyword .AS, .leftParen]

/-- The kinds of the words behind the place. -/
def back : Site → List TokenKind
  | .subselect | .membership _ _ | .existence _ => [.rightParen]
  | .derived _ name => [.rightParen, .identifier name]
  | .cte _ count => [.rightParen, .keyword .SELECT, .integer count]

end Site

/-- A whole statement of one select block that selects one operand. -/
def Phrase.query (ctes : Phrases .cte) (selected : Operand) (sources : Phrases .relation)
    (filter : Perhaps .condition) : Statement :=
  .statement ctes
    (.block .start .absent false (.selectColumn (.column selected .nil .absent) none) .nil sources
      .absent filter .absent .absent)
    .nil .absent .absent

/-- A statement that selects a constant under a condition. -/
def Phrase.filtered (count : Int) (filter : Condition) : Statement :=
  .query .nil (.literal (.integer count)) .nil (.present filter)

/-- The statement with another one in the place. -/
def Site.plug : Site → Statement → Statement
  | .subselect, statement => .query .nil (.subselect statement) .nil .absent
  | .membership count name, statement =>
      .filtered count (.condition
        (.inSelect (.column (.reference none (.plain name)) .nil .absent) false statement) .nil)
  | .existence count, statement =>
      .filtered count (.condition (.exists statement) .nil)
  | .derived count name, statement =>
      .query .nil (.literal (.integer count))
        (.cons (.relation (.derived statement (.plain name)) .nil) .nil) .absent
  | .cte name count, statement =>
      .query (.cons (.cte (.plain name) [] statement) .nil) (.literal (.integer count)) .nil .absent

namespace Parser

variable {scope : Scope} {words : Words}

theorem expect_ok {kind : TokenKind} {what : String} {word : Word} {rest : Words}
    (read : expect kind what scope words = .ok (word, rest)) :
    words = word :: rest ∧ word.kind = kind := by
  obtain ⟨next, behind, ⟨⟩, read⟩ := bind_ok_iff.1 read
  cases words with
  | nil => cases read
  | cons first others =>
      by_cases isKind : first.kind = kind
      · simp only [List.head?_cons, if_pos isKind] at read
        cases read
        exact ⟨rfl, isKind⟩
      · simp only [List.head?_cons, if_neg isKind] at read
        cases read

/-- The words begin with what a statement begins with. -/
def Announced (words : Words) : Prop :=
  ∃ first rest, words = first :: rest ∧
    (first.kind = .keyword .SELECT ∨ first.kind = .keyword .WITH)

theorem Announced.startsStatement (announced : Announced words) :
    startsStatement scope words = .ok (true, words) := by
  obtain ⟨⟨kind, text, glued, index⟩, rest, rfl, announces⟩ := announced
  rcases announces with rfl | rfl <;> rfl

theorem Announced.isEmpty (announced : Announced words) : words.isEmpty = false := by
  obtain ⟨first, rest, rfl, -⟩ := announced
  rfl

end Parser

namespace Grammar

open SelectTree.Parser

variable {rules : Rules} {scope : Scope} {words rest : Words}

/-- A statement begins with SELECT or WITH. -/
theorem announced_of_statement {found : Statement}
    (read : statement rules scope words = .ok (found, rest)) : Announced words := by
  have body : statementBody rules scope words = .ok (found, rest) := by
    rw [statement, committed_apply] at read
    split at read
    · next answer =>
        cases read
        exact answer
    · cases read
  obtain ⟨named, behind, readCtes, body⟩ := bind_ok_iff.1 body
  obtain ⟨block, _, readBlock, -⟩ := bind_ok_iff.1 body
  obtain ⟨select, _, readSelect, -⟩ := bind_ok_iff.1 readBlock
  obtain ⟨rfl, isSelect⟩ := expect_ok readSelect
  obtain ⟨found, _, readWith, readCtes⟩ := bind_ok_iff.1 readCtes
  rw [eatKeyword, eat_apply] at readWith
  split at readWith
  · next atWith =>
      obtain ⟨first, others, rfl⟩ : ∃ first others, words = first :: others := by
        cases words with
        | nil => cases atWith
        | cons first others => exact ⟨first, others, rfl⟩
      exact ⟨first, others, rfl, .inr (by simpa using atWith)⟩
  · cases readWith
    cases readCtes
    exact ⟨select, _, rfl, .inl isSelect⟩

/-! ### Statements in brackets -/

section Bracket

variable {opening closing : Word} {inner behind : Words} {found : Statement}

theorem wholeStatement_ok (read : rules.statement scope inner = .ok (found, [])) :
    rules.wholeStatement scope inner = .ok (found, []) :=
  wholly_ok_iff.2 ⟨read, rfl⟩

/-- A statement in brackets is an operand. -/
theorem bracketOperand_statement (opens : opening.kind = .leftParen) (balanced : inner.Balanced)
    (closes : closing.kind = .rightParen) (announced : Announced inner)
    (read : rules.statement scope inner = .ok (found, [])) :
    bracketOperand rules (scope.widen 1) (opening :: inner ++ closing :: behind) =
      .ok (.subselect found, behind) := by
  apply bracketed_ok opens balanced closes
  refine bind_ok_iff.2 ⟨inner, inner, rfl, ?_⟩
  rw [announced.isEmpty]
  refine bind_ok_iff.2 ⟨true, inner, announced.startsStatement, ?_⟩
  exact bind_ok_iff.2 ⟨found, [], wholeStatement_ok read, rfl⟩

/-- A statement in brackets behind `IN`. -/
theorem membership_statement (opens : opening.kind = .leftParen) (balanced : inner.Balanced)
    (closes : closing.kind = .rightParen) (announced : Announced inner)
    (read : rules.statement scope inner = .ok (found, [])) (column : Column) (negated : Bool) :
    membership rules column negated (scope.widen 1) (opening :: inner ++ closing :: behind) =
      .ok (.inSelect column negated found, behind) := by
  apply bracketed_ok opens balanced closes
  refine bind_ok_iff.2 ⟨true, inner, announced.startsStatement, ?_⟩
  exact bind_ok_iff.2 ⟨found, [], wholeStatement_ok read, rfl⟩

/-- A statement in brackets behind a keyword. -/
theorem bracketedStatement_ok (opens : opening.kind = .leftParen) (balanced : inner.Balanced)
    (closes : closing.kind = .rightParen) (announced : Announced inner)
    (read : rules.statement scope inner = .ok (found, [])) (label : String) :
    bracketedStatement rules label (scope.widen 1) (opening :: inner ++ closing :: behind) =
      .ok (found, behind) := by
  apply bracketed_ok opens balanced closes
  refine bind_ok_iff.2 ⟨true, inner, announced.startsStatement, ?_⟩
  exact wholeStatement_ok read

/-- A statement in brackets is a source. -/
theorem bracketedSource_statement (opens : opening.kind = .leftParen) (balanced : inner.Balanced)
    (closes : closing.kind = .rightParen) (announced : Announced inner)
    (read : rules.statement scope inner = .ok (found, [])) :
    bracketedSource rules (scope.widen 1) (opening :: inner ++ closing :: behind) =
      .ok (.inr found, behind) := by
  apply bracketed_ok opens balanced closes
  refine bind_ok_iff.2 ⟨inner, inner, rfl, ?_⟩
  rw [announced.isEmpty]
  refine bind_ok_iff.2 ⟨true, inner, announced.startsStatement, ?_⟩
  exact bind_ok_iff.2 ⟨found, [], wholeStatement_ok read, rfl⟩

/-- A statement in brackets behind the name of a named subquery. -/
theorem cteStatement_ok (opens : opening.kind = .leftParen) (balanced : inner.Balanced)
    (closes : closing.kind = .rightParen) (announced : Announced inner)
    (read : rules.statement scope inner = .ok (found, [])) (name : Identifier) :
    cteStatement rules name (scope.widen 1) (opening :: inner ++ closing :: behind) =
      .ok (found, behind) := by
  apply bracketed_ok opens balanced closes
  refine bind_ok_iff.2 ⟨true, inner, announced.startsStatement, ?_⟩
  exact wholeStatement_ok read

end Bracket

/-! ### Statements of one block -/

/-- A block that takes all words behind the named subqueries ends the statement. -/
theorem statement_of_ctes {named : List (Phrase .cte)} {found : Phrase (.block false)}
    (readCtes : ctes rules scope words = .ok (named, rest))
    (read : block rules .start scope rest = .ok (found, [])) :
    statement rules scope words =
      .ok (.statement (.ofList named) found .nil .absent .absent, []) := by
  have body : statementBody rules scope words =
      .ok (.statement (.ofList named) found .nil .absent .absent, []) := by
    refine bind_ok_iff.2 ⟨named, rest, readCtes, ?_⟩
    exact bind_ok_iff.2 ⟨found, [], read, rfl⟩
  rw [statement, committed_apply, body]

/-- A block that begins with SELECT and takes all words is a whole statement. -/
theorem statement_of_block {select : Word} {found : Phrase (.block false)}
    (selects : select.kind = .keyword .SELECT)
    (read : block rules .start scope (select :: words) = .ok (found, [])) :
    statement rules scope (select :: words) =
      .ok (.statement .nil found .nil .absent .absent, []) := by
  have noCtes : ctes rules scope (select :: words) = .ok ([], select :: words) := by
    obtain ⟨kind, text, glued, index⟩ := select
    subst selects
    rfl
  exact statement_of_ctes noCtes read

section Block

variable {select next : Word} {more : Words} {selected : Phrase .selectColumn}

/-- Nothing more than one column is selected in front of another clause. -/
theorem commaList_of_keyword {α : Type} {item : Parser α} {value : α} {keyword : Keyword}
    (isKeyword : next.kind = .keyword keyword)
    (read : item scope words = .ok (value, next :: more)) :
    commaList item scope words = .ok ((value, []), next :: more) := by
  refine bind_ok_iff.2 ⟨value, next :: more, read, ?_⟩
  obtain ⟨kind, text, glued, index⟩ := next
  subst isKeyword
  rfl

variable (selects : select.kind = .keyword .SELECT)
  (unmodified : modifiers rules scope words = .ok ({}, words))

include selects unmodified

/-- A block of one column and nothing else. -/
theorem block_of_column (read : selectColumn rules.column scope words = .ok (selected, [])) :
    block rules .start scope (select :: words) =
      .ok (.block .start .absent false selected .nil .nil .absent .absent .absent .absent, []) := by
  obtain ⟨kind, text, glued, index⟩ := select
  subst selects
  refine bind_ok_iff.2 ⟨_, words, rfl, ?_⟩
  refine bind_ok_iff.2 ⟨{}, words, unmodified, ?_⟩
  refine bind_ok_iff.2 ⟨(selected, []), [], ?_, rfl⟩
  exact bind_ok_iff.2 ⟨selected, [], read, rfl⟩

/-- A block of one column with a condition. -/
theorem block_of_filter {condition : Condition} (isWhere : next.kind = .keyword .WHERE)
    (read : selectColumn rules.column scope words = .ok (selected, next :: more))
    (readFilter : rules.condition scope more = .ok (condition, [])) :
    block rules .start scope (select :: words) =
      .ok (.block .start .absent false selected .nil .nil .absent (.present condition) .absent
        .absent, []) := by
  have columns := commaList_of_keyword isWhere read
  obtain ⟨kind, text, glued, index⟩ := select
  obtain ⟨nextKind, nextText, nextGlued, nextIndex⟩ := next
  subst selects isWhere
  refine bind_ok_iff.2 ⟨_, words, rfl, ?_⟩
  refine bind_ok_iff.2 ⟨{}, words, unmodified, ?_⟩
  refine bind_ok_iff.2 ⟨(selected, []), _, columns, ?_⟩
  refine bind_ok_iff.2 ⟨[], _, rfl, ?_⟩
  refine bind_ok_iff.2 ⟨.absent, _, rfl, ?_⟩
  refine bind_ok_iff.2 ⟨.present condition, [], ?_, rfl⟩
  refine bind_ok_iff.2 ⟨true, more, rfl, ?_⟩
  exact bind_ok_iff.2 ⟨condition, [], readFilter, rfl⟩

/-- A block of one column with one source. -/
theorem block_of_source {relation : Relation} (isFrom : next.kind = .keyword .FROM)
    (read : selectColumn rules.column scope words = .ok (selected, next :: more))
    (readSource : rules.relation scope more = .ok (relation, [])) :
    block rules .start scope (select :: words) =
      .ok (.block .start .absent false selected .nil (.cons relation .nil) .absent .absent .absent
        .absent, []) := by
  have columns := commaList_of_keyword isFrom read
  obtain ⟨kind, text, glued, index⟩ := select
  obtain ⟨nextKind, nextText, nextGlued, nextIndex⟩ := next
  subst selects isFrom
  refine bind_ok_iff.2 ⟨_, words, rfl, ?_⟩
  refine bind_ok_iff.2 ⟨{}, words, unmodified, ?_⟩
  refine bind_ok_iff.2 ⟨(selected, []), _, columns, ?_⟩
  refine bind_ok_iff.2 ⟨[relation], [], ?_, rfl⟩
  refine bind_ok_iff.2 ⟨true, more, rfl, ?_⟩
  refine bind_ok_iff.2 ⟨(relation, []), [], ?_, rfl⟩
  exact bind_ok_iff.2 ⟨relation, [], readSource, rfl⟩

end Block

/-- Neither a constant nor a bracket is a modifier. -/
theorem modifiers_none {first : Word}
    (plain : (∃ value, first.kind = .integer value) ∨ first.kind = .leftParen) :
    modifiers rules scope (first :: rest) = .ok ({}, first :: rest) := by
  obtain ⟨kind, text, glued, index⟩ := first
  rcases plain with ⟨value, rfl⟩ | rfl <;> rfl

/-- A constant as the last column that is selected. -/
theorem selectColumn_constant {count : Word} {value : Int} (noHooks : scope.hooks = {})
    (isCount : count.kind = .integer value)
    (ends : rest = [] ∨ ∃ next more, rest = next :: more ∧
      (next.kind = .keyword .WHERE ∨ next.kind = .keyword .FROM)) :
    selectColumn (column rules) scope (count :: rest) =
      .ok (.selectColumn (.column (.literal (.integer value)) .nil .absent) none, rest) := by
  obtain ⟨room, nesting, hooks⟩ := scope
  obtain ⟨kind, text, glued, index⟩ := count
  subst noHooks isCount
  rcases ends with rfl | ⟨⟨nextKind, nextText, nextGlued, nextIndex⟩, more, rfl, rfl | rfl⟩ <;> rfl

/-- An operand that is all that is selected. -/
theorem selectColumn_of_operand {found : Operand}
    (read : operand rules scope words = .ok (found, [])) :
    selectColumn (column rules) scope words =
      .ok (.selectColumn (.column found .nil .absent) none, []) := by
  refine bind_ok_iff.2 ⟨.column found .nil .absent, [], ?_, rfl⟩
  exact bind_ok_iff.2 ⟨found, [], read, rfl⟩

/-! ### What stands around a statement in brackets -/

section Around

variable {opening closing : Word} {inner behind : Words} {found : Statement}

/-- A name in front of `IN`. -/
theorem term_of_membership {column member : Word} {name : String} (noHooks : scope.hooks = {})
    (isName : column.kind = .identifier name) (isIn : member.kind = .keyword .IN) :
    term rules scope (column :: member :: words) =
      membership rules (.column (.reference none (.plain name)) .nil .absent) false scope
        words := by
  obtain ⟨room, nesting, hooks⟩ := scope
  obtain ⟨kind, text, glued, index⟩ := column
  obtain ⟨memberKind, memberText, memberGlued, memberIndex⟩ := member
  subst noHooks isName isIn
  rfl

theorem term_of_existence {exist : Word} (noHooks : scope.hooks = {})
    (isExists : exist.kind = .keyword .EXISTS)
    (read : bracketedStatement rules "EXISTS" scope words = .ok (found, rest)) :
    term rules scope (exist :: words) = .ok (.exists found, rest) := by
  obtain ⟨room, nesting, hooks⟩ := scope
  obtain ⟨kind, text, glued, index⟩ := exist
  subst noHooks isExists
  refine bind_ok_iff.2 ⟨none, _, rfl, ?_⟩
  refine bind_ok_iff.2 ⟨false, _, rfl, ?_⟩
  refine bind_ok_iff.2 ⟨true, words, rfl, ?_⟩
  exact bind_ok_iff.2 ⟨found, rest, read, rfl⟩

theorem relation_of_derived {called : Word} {name : String} (opens : opening.kind = .leftParen)
    (isName : called.kind = .identifier name)
    (read : bracketedSource rules scope (opening :: words) = .ok (.inr found, [called])) :
    relation rules scope (opening :: words) =
      .ok (.relation (.derived found (.plain name)) .nil, []) := by
  obtain ⟨kind, text, glued, index⟩ := opening
  obtain ⟨nameKind, nameText, nameGlued, nameIndex⟩ := called
  subst opens isName
  refine bind_ok_iff.2 ⟨.derived found (.plain name), [], ?_, rfl⟩
  refine bind_ok_iff.2 ⟨true, _, rfl, ?_⟩
  exact bind_ok_iff.2 ⟨.inr found, _, read, rfl⟩

theorem ctes_of_statement {introducer named as select : Word} {name : String}
    (isWith : introducer.kind = .keyword .WITH) (isName : named.kind = .identifier name)
    (isAs : as.kind = .keyword .AS) (selects : select.kind = .keyword .SELECT)
    (read : cteStatement rules (.plain name) scope words = .ok (found, select :: rest)) :
    ctes rules scope (introducer :: named :: as :: words) =
      .ok ([.cte (.plain name) [] found], select :: rest) := by
  obtain ⟨kind, text, glued, index⟩ := introducer
  obtain ⟨nameKind, nameText, nameGlued, nameIndex⟩ := named
  obtain ⟨asKind, asText, asGlued, asIndex⟩ := as
  subst isWith isName isAs
  refine bind_ok_iff.2 ⟨true, _, rfl, ?_⟩
  refine bind_ok_iff.2 ⟨(.cte (.plain name) [] found, []), select :: rest, ?_, rfl⟩
  apply commaList_of_keyword selects
  refine bind_ok_iff.2 ⟨.plain name, _, rfl, ?_⟩
  refine bind_ok_iff.2 ⟨false, _, rfl, ?_⟩
  refine bind_ok_iff.2 ⟨[], _, rfl, ?_⟩
  refine bind_ok_iff.2 ⟨_, words, rfl, ?_⟩
  exact bind_ok_iff.2 ⟨found, select :: rest, read, rfl⟩

end Around

end Grammar

namespace Site

open SelectTree.Grammar SelectTree.Parser

variable {scope : Scope} {front inner back : Words} {depth : Nat} {statement : Statement}
  {count : Int} {name : String}

theorem read_subselect (frontKinds : front.map Word.kind = Site.subselect.front)
    (backKinds : back.map Word.kind = Site.subselect.back) (noHooks : scope.hooks = {})
    (balanced : inner.Balanced)
    (read : Grammar.statement (Grammar.rules depth) scope inner = .ok (statement, [])) :
    Grammar.statement (Grammar.rules (depth + 2)) (scope.widen 1) (front ++ inner ++ back) =
      .ok (Site.subselect.plug statement, []) := by
  simp only [Site.front, Site.back, List.map_eq_cons_iff, List.map_eq_nil_iff]
    at frontKinds backKinds
  obtain ⟨select, _, rfl, selects, opening, _, rfl, opens, rfl⟩ := frontKinds
  obtain ⟨closing, _, rfl, closes, rfl⟩ := backKinds
  have noOperand : (scope.widen 1).hooks.operand = none := by rw [Scope.widen, noHooks]
  have bracket : bracketOperand (Grammar.rules (depth + 1)) (scope.widen 1)
      (opening :: inner ++ [closing]) = .ok (.subselect statement, []) :=
    bracketOperand_statement opens balanced closes (announced_of_statement read) read
  rw [List.cons_append, ← operand_at_bracket noOperand opens] at bracket
  apply statement_of_block selects
  apply block_of_column selects (modifiers_none (.inr opens))
  exact selectColumn_of_operand bracket

/-- A statement that selects a constant under a condition. -/
theorem read_filtered {select selected condition : Word} {words : Words} {filter : Condition}
    (selects : select.kind = .keyword .SELECT) (isCount : selected.kind = .integer count)
    (isWhere : condition.kind = .keyword .WHERE) (noHooks : scope.hooks = {})
    (read : Grammar.condition (Grammar.rules (depth + 1)) scope words = .ok (filter, [])) :
    Grammar.statement (Grammar.rules (depth + 2)) scope
        (select :: selected :: condition :: words) =
      .ok (.filtered count filter, []) := by
  apply statement_of_block selects
  apply block_of_filter selects (modifiers_none (.inl ⟨count, isCount⟩)) isWhere _ read
  exact selectColumn_constant noHooks isCount (.inr ⟨condition, words, rfl, .inl isWhere⟩)

theorem read_membership (frontKinds : front.map Word.kind = (Site.membership count name).front)
    (backKinds : back.map Word.kind = (Site.membership count name).back)
    (noHooks : scope.hooks = {}) (balanced : inner.Balanced)
    (read : Grammar.statement (Grammar.rules depth) scope inner = .ok (statement, [])) :
    Grammar.statement (Grammar.rules (depth + 2)) (scope.widen 1) (front ++ inner ++ back) =
      .ok ((Site.membership count name).plug statement, []) := by
  simp only [Site.front, Site.back, List.map_eq_cons_iff, List.map_eq_nil_iff]
    at frontKinds backKinds
  obtain ⟨select, _, rfl, selects, selected, _, rfl, isCount, condition, _, rfl, isWhere, column,
    _, rfl, isName, member, _, rfl, isIn, opening, _, rfl, opens, rfl⟩ := frontKinds
  obtain ⟨closing, _, rfl, closes, rfl⟩ := backKinds
  have noHooksOutside : (scope.widen 1).hooks = {} := noHooks
  apply read_filtered selects isCount isWhere noHooksOutside
  apply condition_of_term
  refine (term_of_membership noHooksOutside isName isIn).trans ?_
  exact membership_statement opens balanced closes (announced_of_statement read) read _ _

theorem read_existence (frontKinds : front.map Word.kind = (Site.existence count).front)
    (backKinds : back.map Word.kind = (Site.existence count).back)
    (noHooks : scope.hooks = {}) (balanced : inner.Balanced)
    (read : Grammar.statement (Grammar.rules depth) scope inner = .ok (statement, [])) :
    Grammar.statement (Grammar.rules (depth + 2)) (scope.widen 1) (front ++ inner ++ back) =
      .ok ((Site.existence count).plug statement, []) := by
  simp only [Site.front, Site.back, List.map_eq_cons_iff, List.map_eq_nil_iff]
    at frontKinds backKinds
  obtain ⟨select, _, rfl, selects, selected, _, rfl, isCount, condition, _, rfl, isWhere, exist,
    _, rfl, isExists, opening, _, rfl, opens, rfl⟩ := frontKinds
  obtain ⟨closing, _, rfl, closes, rfl⟩ := backKinds
  have noHooksOutside : (scope.widen 1).hooks = {} := noHooks
  apply read_filtered selects isCount isWhere noHooksOutside
  apply condition_of_term
  apply term_of_existence noHooksOutside isExists
  exact bracketedStatement_ok opens balanced closes (announced_of_statement read) read _

theorem read_derived (frontKinds : front.map Word.kind = (Site.derived count name).front)
    (backKinds : back.map Word.kind = (Site.derived count name).back)
    (noHooks : scope.hooks = {}) (balanced : inner.Balanced)
    (read : Grammar.statement (Grammar.rules depth) scope inner = .ok (statement, [])) :
    Grammar.statement (Grammar.rules (depth + 2)) (scope.widen 1) (front ++ inner ++ back) =
      .ok ((Site.derived count name).plug statement, []) := by
  simp only [Site.front, Site.back, List.map_eq_cons_iff, List.map_eq_nil_iff]
    at frontKinds backKinds
  obtain ⟨select, _, rfl, selects, selected, _, rfl, isCount, source, _, rfl, isFrom, opening, _,
    rfl, opens, rfl⟩ := frontKinds
  obtain ⟨closing, _, rfl, closes, called, _, rfl, isName, rfl⟩ := backKinds
  have noHooksOutside : (scope.widen 1).hooks = {} := noHooks
  have bracket : bracketedSource (Grammar.rules (depth + 1)) (scope.widen 1)
      (opening :: inner ++ [closing, called]) = .ok (.inr statement, [called]) :=
    bracketedSource_statement opens balanced closes (announced_of_statement read) read
  apply statement_of_block selects
  apply block_of_source selects (modifiers_none (.inl ⟨count, isCount⟩)) isFrom
  · exact selectColumn_constant noHooksOutside isCount (.inr ⟨source, _, rfl, .inr isFrom⟩)
  · exact relation_of_derived opens isName bracket

theorem read_cte (frontKinds : front.map Word.kind = (Site.cte name count).front)
    (backKinds : back.map Word.kind = (Site.cte name count).back)
    (noHooks : scope.hooks = {}) (balanced : inner.Balanced)
    (read : Grammar.statement (Grammar.rules (depth + 1)) scope inner = .ok (statement, [])) :
    Grammar.statement (Grammar.rules (depth + 2)) (scope.widen 1) (front ++ inner ++ back) =
      .ok ((Site.cte name count).plug statement, []) := by
  simp only [Site.front, Site.back, List.map_eq_cons_iff, List.map_eq_nil_iff]
    at frontKinds backKinds
  obtain ⟨introducer, _, rfl, isWith, named, _, rfl, isName, as, _, rfl, isAs, opening, _, rfl,
    opens, rfl⟩ := frontKinds
  obtain ⟨closing, _, rfl, closes, select, _, rfl, selects, selected, _, rfl, isCount,
    rfl⟩ := backKinds
  have noHooksOutside : (scope.widen 1).hooks = {} := noHooks
  have bracket : cteStatement (Grammar.rules (depth + 2)) (.plain name) (scope.widen 1)
      (opening :: inner ++ [closing, select, selected]) = .ok (statement, [select, selected]) :=
    cteStatement_ok opens balanced closes (announced_of_statement read) read _
  have readColumn : selectColumn (Grammar.rules (depth + 2)).column (scope.widen 1) [selected] =
      .ok (.selectColumn (.column (.literal (.integer count)) .nil .absent) none, []) :=
    selectColumn_constant noHooksOutside isCount (.inl rfl)
  refine statement_of_ctes (ctes_of_statement isWith isName isAs selects bracket) ?_
  exact block_of_column selects (modifiers_none (.inl ⟨count, isCount⟩)) readColumn

/-- Around a statement in brackets another one is read, whatever the statement inside is. -/
theorem read_plug (site : Site) (frontKinds : front.map Word.kind = site.front)
    (backKinds : back.map Word.kind = site.back) (noHooks : scope.hooks = {})
    (balanced : inner.Balanced)
    (read : ∀ deeper, depth ≤ deeper →
      Grammar.statement (Grammar.rules deeper) scope inner = .ok (statement, [])) :
    Grammar.statement (Grammar.rules (depth + 2)) (scope.widen 1) (front ++ inner ++ back) =
      .ok (site.plug statement, []) := by
  have atDepth := read depth (Nat.le_refl depth)
  cases site with
  | subselect => exact read_subselect frontKinds backKinds noHooks balanced atDepth
  | membership count name => exact read_membership frontKinds backKinds noHooks balanced atDepth
  | existence count => exact read_existence frontKinds backKinds noHooks balanced atDepth
  | derived count name => exact read_derived frontKinds backKinds noHooks balanced atDepth
  | cte name count =>
      exact read_cte frontKinds backKinds noHooks balanced (read (depth + 1) (Nat.le_succ depth))

end Site

end SelectTree
