/-
Module: SelectTree.Grammar
Purpose: the whole grammar: every rule applied inside of every other.
Main exports: Grammar.rules, Rule, Rule.parser
-/
import SelectTree.Grammar.Statement

namespace SelectTree

namespace Grammar

/-- Each rule with the given rules inside. -/
def Rules.around (inner : Rules) : Rules :=
  { operand := Grammar.operand inner
    column := Grammar.column inner
    term := Grammar.term inner
    condition := Grammar.condition inner
    relation := Grammar.relation inner
    statement := Grammar.statement inner }

/-- The rules to a depth of so many levels of each other. -/
def rules : Nat → Rules
  | 0 => .exhausted
  | depth + 1 => (rules depth).around

/-- Runs a rule with rules inside that are deep enough for the words: between two levels at
least one word is consumed. -/
def deeply {α : Type} (rule : Rules → Parser α) : Parser α := do
  rule (rules ((← Parser.remaining).length + 1))

end Grammar

/-- The rules of the grammar that may be applied by themselves. -/
inductive Rule where
  | selectColumn
  | column
  | operand
  | bracketOperand
  | condition
  | relation
  | statement
  | select
  | top
  | pivot
  | groupBy
  | orderBy
  | orderItem
  | window
  | optionHints
deriving Repr, Inhabited, DecidableEq

namespace Rule

/-- The form of the phrases that a rule recognises. -/
def form : Rule → Form
  | .selectColumn => .selectColumn
  | .column => .column
  | .operand => .operand
  | .bracketOperand => .operand
  | .condition => .condition
  | .relation => .relation
  | .statement => .statement
  | .select => .block false
  | .top => .top
  | .pivot => .pivot
  | .groupBy => .groupBy
  | .orderBy => .orderBy
  | .orderItem => .orderItem
  | .window => .window
  | .optionHints => .optionHints

/-- A rule as a parser, with the given rules inside. -/
def step (rules : Grammar.Rules) : (rule : Rule) → Parser (Phrase rule.form)
  | .selectColumn => Grammar.selectColumn (Grammar.column rules)
  | .column => Grammar.column rules
  | .operand => Grammar.operand rules
  | .bracketOperand => Grammar.bracketOperand rules
  | .condition => Grammar.condition rules
  | .relation => Grammar.relation rules
  | .statement => Grammar.statement rules
  | .select => Grammar.select rules
  | .top => Grammar.top rules
  | .pivot => Grammar.pivot rules
  | .groupBy => Grammar.groupBy rules
  | .orderBy => Grammar.orderBy rules
  | .orderItem => Grammar.orderItem rules
  | .window => Grammar.window rules
  | .optionHints => Grammar.optionHints

/-- A rule as a parser. -/
def parser (rule : Rule) : Parser (Phrase rule.form) :=
  Grammar.deeply fun rules => rule.step rules

end Rule

end SelectTree
