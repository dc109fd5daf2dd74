/-
Module: SelectTree.Build
Purpose: the whole grammar at work on a tree.
Main exports: Build.rules, Rule.builder
-/
import SelectTree.Build.Statement
import SelectTree.Grammar

namespace SelectTree

namespace Build

/-- Each rule with the given rules inside. -/
def Rules.around (inner : Rules) : Rules :=
  { operand := Build.operand inner
    column := Build.column inner
    term := Build.term inner
    condition := Build.condition inner
    relation := Build.relation inner
    statement := Build.statement inner }

/-- The rules to a depth of so many levels of each other. -/
def rules : Nat → Rules
  | 0 => .exhausted
  | depth + 1 => (rules depth).around

/-- Runs a rule with rules inside that are deep enough for the words. -/
def deeply {α : Type} (rule : Rules → Builder α) : Builder α := do
  rule (rules ((← Builder.read Parser.remaining).length + 1))

end Build

namespace Rule

/-- A rule that adds what it reads, with the given rules inside. -/
def buildStep (rules : Build.Rules) : Rule → Builder NodeId
  | .selectColumn => Build.selectColumn (Build.column rules)
  | .column => Build.column rules
  | .operand => Build.operand rules
  | .bracketOperand => Build.bracketOperand rules
  | .condition => Build.condition rules
  | .relation => Build.relation rules
  | .statement => Build.statement rules
  | .select => Build.select rules
  | .top => Build.top rules
  | .pivot => Build.pivot rules
  | .groupBy => Build.groupBy rules
  | .orderBy => Build.orderBy rules
  | .orderItem => Build.orderItem rules
  | .window => Build.window rules
  | .optionHints => Build.optionHints

/-- A rule that adds what it reads to a tree. -/
def builder (rule : Rule) : Builder NodeId :=
  Build.deeply rule.buildStep

end Rule

end SelectTree
