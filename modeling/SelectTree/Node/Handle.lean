/-
Module: SelectTree.Node.Handle
Purpose: the fields of a node by number, for writing.
Main exports: FieldHandle, Node.handle

Each kind says for itself which of its parts stands behind a number.  Whoever has the handle of a
field can put other children there without knowing the kind.
-/
import SelectTree.Node.Access

namespace SelectTree

/-- A field that can be written to: what is in it, and what it is a part of, with something else
in it. -/
inductive FieldHandle (α : Type) where
  | child (held : Slot) (put : Slot → α)
  | childList (held : List Slot) (put : List Slot → α)
  /-- A value, or no field at all. -/
  | value

namespace FieldHandle

variable {α β : Type}

/-- What is in the field. -/
def content : FieldHandle α → FieldContent
  | .child held _ => .child held
  | .childList held _ => .childList held
  | .value => .value

/-- What comes of putting a content into the field, if the field can hold it. -/
def put? : FieldHandle α → FieldContent → Option α
  | .child _ put, .child slot => some (put slot)
  | .childList _ put, .childList slots => some (put slots)
  | _, _ => none

/-- The field of a part as a field of the whole. -/
def map (whole : α → β) : FieldHandle α → FieldHandle β
  | .child held put => .child held fun slot => whole (put slot)
  | .childList held put => .childList held fun slots => whole (put slots)
  | .value => .value

end FieldHandle

/-- The field of a column under a number. -/
def ColumnNode.handle : ColumnNode → Nat → FieldHandle ColumnNode
  | .function name arguments, 1 => .childList arguments (.function name ·)
  | .aggregation aggregate distinct arguments, 2 =>
      .childList arguments (.aggregation aggregate distinct ·)
  | .cast value typeName tryCast, 0 => .child value (.cast · typeName tryCast)
  | .convert typeName value style tryConvert, 1 =>
      .child value (.convert typeName · style tryConvert)
  | .convert typeName value style tryConvert, 2 =>
      .child style (.convert typeName value · tryConvert)
  | .parse value typeName culture tryParse, 0 => .child value (.parse · typeName culture tryParse)
  | .parse value typeName culture tryParse, 2 => .child culture (.parse value typeName · tryParse)
  | .iif condition thenValue elseValue, 0 => .child condition (.iif · thenValue elseValue)
  | .iif condition thenValue elseValue, 1 => .child thenValue (.iif condition · elseValue)
  | .iif condition thenValue elseValue, 2 => .child elseValue (.iif condition thenValue ·)
  | .case operand branches otherwise, 0 => .child operand (.case · branches otherwise)
  | .case operand branches otherwise, 1 => .childList branches (.case operand · otherwise)
  | .case operand branches otherwise, 2 => .child otherwise (.case operand branches ·)
  | .bracket inner, 0 => .child inner .bracket
  | .subselect select, 0 => .child select .subselect
  | .arithmetic left operations, 0 => .child left (.arithmetic · operations)
  | .arithmetic left operations, 1 => .childList operations (.arithmetic left ·)
  | .negated operand, 0 => .child operand .negated
  | .windowed column window, 0 => .child column (.windowed · window)
  | .windowed column window, 1 => .child window (.windowed column ·)
  | .renamed column called, 0 => .child column (.renamed · called)
  | _, _ => .value

/-- The field of a condition under a number. -/
def ConditionNode.handle : ConditionNode → Nat → FieldHandle ConditionNode
  | .comparison left operator right, 0 => .child left (.comparison · operator right)
  | .comparison left operator right, 2 => .child right (.comparison left operator ·)
  | .setComparison left operator quantifier right, 0 =>
      .child left (.setComparison · operator quantifier right)
  | .setComparison left operator quantifier right, 3 =>
      .child right (.setComparison left operator quantifier ·)
  | .inList column negated values, 0 => .child column (.inList · negated values)
  | .inList column negated values, 2 => .childList values (.inList column negated ·)
  | .inSelect column negated select, 0 => .child column (.inSelect · negated select)
  | .inSelect column negated select, 2 => .child select (.inSelect column negated ·)
  | .between column negated lower upper, 0 => .child column (.between · negated lower upper)
  | .between column negated lower upper, 2 => .child lower (.between column negated · upper)
  | .between column negated lower upper, 3 => .child upper (.between column negated lower ·)
  | .isNull column negated, 0 => .child column (.isNull · negated)
  | .exists select, 0 => .child select .exists
  | .not condition, 0 => .child condition .not
  | .bracket inner, 0 => .child inner .bracket
  | .chain left links, 0 => .child left (.chain · links)
  | .chain left links, 1 => .childList links (.chain left ·)
  | _, _ => .value

/-- The field of a relation under a number. -/
def RelationNode.handle : RelationNode → Nat → FieldHandle RelationNode
  | .bracket inner, 0 => .child inner .bracket
  | .subselect select called, 0 => .child select (.subselect · called)
  | .joinChain left joins, 0 => .child left (.joinChain · joins)
  | .joinChain left joins, 1 => .childList joins (.joinChain left ·)
  | _, _ => .value

/-- The field of an element under a number. -/
def ElementNode.handle : ElementNode → Nat → FieldHandle ElementNode
  | .cte name columns select, 2 => .child select (.cte name columns ·)
  | .top count percent withTies, 0 => .child count (.top · percent withTies)
  | .pivot aggregation pivotColumn values called, 0 =>
      .child aggregation (.pivot · pivotColumn values called)
  | .pivot aggregation pivotColumn values called, 1 =>
      .child pivotColumn (.pivot aggregation · values called)
  | .pivot aggregation pivotColumn values called, 2 =>
      .childList values (.pivot aggregation pivotColumn · called)
  | .groupBy groupingSets sets, 1 => .childList sets (.groupBy groupingSets ·)
  | .groupingSet kind columns, 1 => .childList columns (.groupingSet kind ·)
  | .orderBy items offset fetch, 0 => .childList items (.orderBy · offset fetch)
  | .orderBy items offset fetch, 1 => .child offset (.orderBy items · fetch)
  | .orderBy items offset fetch, 2 => .child fetch (.orderBy items offset ·)
  | .orderItem column collation direction, 0 => .child column (.orderItem · collation direction)
  | .window partitionBy items frame lower upper, 0 =>
      .childList partitionBy (.window · items frame lower upper)
  | .window partitionBy items frame lower upper, 1 =>
      .childList items (.window partitionBy · frame lower upper)
  | .join joinType relation condition, 1 => .child relation (.join joinType · condition)
  | .join joinType relation condition, 2 => .child condition (.join joinType relation ·)
  | .arithmeticOperation operator operand, 1 => .child operand (.arithmeticOperation operator ·)
  | .conditionLink operator condition, 1 => .child condition (.conditionLink operator ·)
  | .caseBranch condition value result, 0 => .child condition (.caseBranch · value result)
  | .caseBranch condition value result, 1 => .child value (.caseBranch condition · result)
  | .caseBranch condition value result, 2 => .child result (.caseBranch condition value ·)
  | _, _ => .value

/-- The field of a node under a number.  Each family numbers the fields of its own kinds. -/
def Node.handle : Node → Nat → FieldHandle Node
  | .root child, 0 => .child child .root
  | .column part, index => (part.handle index).map .column
  | .condition part, index => (part.handle index).map .condition
  | .relation part, index => (part.handle index).map .relation
  | .statement ctes selects orderBy options, 0 =>
      .childList ctes (.statement · selects orderBy options)
  | .statement ctes selects orderBy options, 1 =>
      .childList selects (.statement ctes · orderBy options)
  | .statement ctes selects orderBy options, 2 =>
      .child orderBy (.statement ctes selects · options)
  | .statement ctes selects orderBy options, 3 =>
      .child options (.statement ctes selects orderBy ·)
  | .select setOperator top distinct columns sources pivot filter groupBy having, 1 =>
      .child top (.select setOperator · distinct columns sources pivot filter groupBy having)
  | .select setOperator top distinct columns sources pivot filter groupBy having, 3 =>
      .childList columns (.select setOperator top distinct · sources pivot filter groupBy having)
  | .select setOperator top distinct columns sources pivot filter groupBy having, 4 =>
      .childList sources (.select setOperator top distinct columns · pivot filter groupBy having)
  | .select setOperator top distinct columns sources pivot filter groupBy having, 5 =>
      .child pivot (.select setOperator top distinct columns sources · filter groupBy having)
  | .select setOperator top distinct columns sources pivot filter groupBy having, 6 =>
      .child filter (.select setOperator top distinct columns sources pivot · groupBy having)
  | .select setOperator top distinct columns sources pivot filter groupBy having, 7 =>
      .child groupBy (.select setOperator top distinct columns sources pivot filter · having)
  | .select setOperator top distinct columns sources pivot filter groupBy having, 8 =>
      .child having (.select setOperator top distinct columns sources pivot filter groupBy ·)
  | .element part, index => (part.handle index).map .element
  | _, _ => .value

end SelectTree
