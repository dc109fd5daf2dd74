/-
Module: SelectTree.Node.Field
Purpose: the fields that each kind of node declares, and the values they hold.
Main exports: NodeId, Slot, FieldType, FieldShape, FieldDescriptor, FieldValue, Kind.fields
-/
import SelectTree.Identifier
import SelectTree.Literal
import SelectTree.Node.Kind
import SelectTree.Operator

namespace SelectTree

/-- The number of a node in its tree. -/
structure NodeId where
  index : Nat
deriving Repr, Inhabited, DecidableEq

namespace NodeId

/-- The root of every tree. -/
def root : NodeId :=
  { index := 0 }

/-- The shown form. -/
def render (id : NodeId) : String :=
  s!"#{id.index}"

end NodeId

/-- A place for a child, which may be empty. -/
abbrev Slot := Option NodeId

/-- What a field holds. -/
inductive FieldType where
  /-- One child of the demanded class. -/
  | child (accepts : NodeClass)
  /-- A list of children of the demanded class. -/
  | children (accepts : NodeClass)
  | flag
  | text
  | optionalText
  | texts
  | optionalInteger
  | identifier
  | optionalIdentifier
  | identifiers
  | literal
  | arithmeticOperator
  | comparisonOperator
  | logicOperator
  | quantifier
  | aggregateFunction
  | optionalSetOperator
  | joinType
  | groupingKind
  | sortDirection
  | optionalFrameUnit
deriving Repr, Inhabited, DecidableEq

/-- How the tree operations see a field: as children, as plain values, or as values with a
structure of their own that are not nodes. -/
inductive FieldShape where
  | child
  | childList
  | scalar
  | scalarList
  | opaqueValue
  | opaqueList
deriving Repr, Inhabited, DecidableEq

/-- The shown form. -/
def FieldShape.name : FieldShape → String
  | .child => "Child"
  | .childList => "ChildList"
  | .scalar => "Scalar"
  | .scalarList => "ScalarList"
  | .opaqueValue => "Opaque"
  | .opaqueList => "OpaqueList"

namespace FieldType

/-- The shape of a field.  Names are values with a structure of their own. -/
def shape : FieldType → FieldShape
  | .child _ => .child
  | .children _ => .childList
  | .texts => .scalarList
  | .identifier | .optionalIdentifier => .opaqueValue
  | .identifiers => .opaqueList
  | _ => .scalar

/-- The class that a field of children demands. -/
def accepts? : FieldType → Option NodeClass
  | .child accepts | .children accepts => some accepts
  | _ => none

end FieldType

/-- A field of a kind of node. -/
structure FieldDescriptor where
  name : String
  type : FieldType
deriving Repr, Inhabited, DecidableEq

/-- The contents of a field. -/
inductive FieldValue where
  | child (slot : Slot)
  | children (slots : List Slot)
  | flag (value : Bool)
  | text (value : String)
  | optionalText (value : Option String)
  | texts (value : List String)
  | optionalInteger (value : Option Int)
  | identifier (value : Identifier)
  | optionalIdentifier (value : Option Identifier)
  | identifiers (value : List Identifier)
  | literal (value : Literal)
  | arithmeticOperator (value : ArithmeticOperator)
  | comparisonOperator (value : ComparisonOperator)
  | logicOperator (value : LogicOperator)
  | quantifier (value : Quantifier)
  | aggregateFunction (value : AggregateFunction)
  | optionalSetOperator (value : Option SetOperator)
  | joinType (value : JoinType)
  | groupingKind (value : GroupingKind)
  | sortDirection (value : SortDirection)
  | optionalFrameUnit (value : Option FrameUnit)
deriving Repr, Inhabited, DecidableEq

namespace FieldValue

/-- The children in a field, from first to last. -/
def childIds : FieldValue → List NodeId
  | .child slot => slot.toList
  | .children slots => slots.filterMap id
  | _ => []

end FieldValue

/-- What a field holds before anything is put into it. -/
def FieldType.empty : FieldType → FieldValue
  | .child _ => .child none
  | .children _ => .children []
  | .flag => .flag false
  | .text => .text ""
  | .optionalText => .optionalText none
  | .texts => .texts []
  | .optionalInteger => .optionalInteger none
  | .identifier => .identifier (.plain "")
  | .optionalIdentifier => .optionalIdentifier none
  | .identifiers => .identifiers []
  | .literal => .literal (.integer 0)
  | .arithmeticOperator => .arithmeticOperator .add
  | .comparisonOperator => .comparisonOperator .eq
  | .logicOperator => .logicOperator .and
  | .quantifier => .quantifier .any
  | .aggregateFunction => .aggregateFunction .count
  | .optionalSetOperator => .optionalSetOperator none
  | .joinType => .joinType .inner
  | .groupingKind => .groupingKind .columns
  | .sortDirection => .sortDirection .asc
  | .optionalFrameUnit => .optionalFrameUnit none

/-- The fields of a kind, in the order of their declaration. -/
def Kind.fields : Kind → List FieldDescriptor
  | .root => [⟨"child", .child .any⟩]
  | .literalColumn => [⟨"value", .literal⟩]
  | .nullColumn => []
  | .starColumn => [⟨"table", .optionalIdentifier⟩]
  | .variableColumn => [⟨"name", .text⟩]
  | .primitiveColumn => [⟨"table", .optionalIdentifier⟩, ⟨"name", .identifier⟩]
  | .functionColumn => [⟨"name", .identifiers⟩, ⟨"arguments", .children .column⟩]
  | .aggregationColumn =>
      [⟨"function", .aggregateFunction⟩, ⟨"distinct", .flag⟩, ⟨"arguments", .children .column⟩]
  | .castColumn => [⟨"value", .child .column⟩, ⟨"type_name", .text⟩, ⟨"try_cast", .flag⟩]
  | .convertColumn =>
      [⟨"type_name", .text⟩, ⟨"value", .child .column⟩, ⟨"style", .child .column⟩,
       ⟨"try_convert", .flag⟩]
  | .parseColumn =>
      [⟨"value", .child .column⟩, ⟨"type_name", .text⟩, ⟨"culture", .child .column⟩,
       ⟨"try_parse", .flag⟩]
  | .iifColumn =>
      [⟨"condition", .child .condition⟩, ⟨"then_value", .child .column⟩,
       ⟨"else_value", .child .column⟩]
  | .caseColumn =>
      [⟨"operand", .child .column⟩, ⟨"branches", .children .caseBranch⟩,
       ⟨"otherwise", .child .column⟩]
  | .bracketColumn => [⟨"inner", .child .column⟩]
  | .subselectColumn => [⟨"select", .child .statement⟩]
  | .arithmeticColumn =>
      [⟨"left", .child .column⟩, ⟨"operations", .children .arithmeticOperation⟩]
  | .negatedColumn => [⟨"operand", .child .column⟩]
  | .overColumn => [⟨"column", .child .column⟩, ⟨"window", .child .window⟩]
  | .aliasColumn => [⟨"column", .child .column⟩, ⟨"alias", .identifier⟩]
  | .comparisonCondition =>
      [⟨"left", .child .column⟩, ⟨"operator", .comparisonOperator⟩, ⟨"right", .child .column⟩]
  | .setComparisonCondition =>
      [⟨"left", .child .column⟩, ⟨"operator", .comparisonOperator⟩, ⟨"quantifier", .quantifier⟩,
       ⟨"right", .child .column⟩]
  | .inListCondition =>
      [⟨"column", .child .column⟩, ⟨"negated", .flag⟩, ⟨"values", .children .column⟩]
  | .inSelectCondition =>
      [⟨"column", .child .column⟩, ⟨"negated", .flag⟩, ⟨"select", .child .statement⟩]
  | .betweenCondition =>
      [⟨"column", .child .column⟩, ⟨"negated", .flag⟩, ⟨"lower", .child .column⟩,
       ⟨"upper", .child .column⟩]
  | .isNullCondition => [⟨"column", .child .column⟩, ⟨"negated", .flag⟩]
  | .existsCondition => [⟨"select", .child .statement⟩]
  | .notCondition => [⟨"condition", .child .condition⟩]
  | .bracketCondition => [⟨"inner", .child .condition⟩]
  | .chainCondition => [⟨"left", .child .condition⟩, ⟨"links", .children .conditionLink⟩]
  | .tableRelation => [⟨"name", .identifiers⟩, ⟨"alias", .optionalIdentifier⟩]
  | .bracketRelation => [⟨"inner", .child .relation⟩]
  | .subselectRelation => [⟨"select", .child .statement⟩, ⟨"alias", .identifier⟩]
  | .joinChainRelation => [⟨"left", .child .relation⟩, ⟨"joins", .children .join⟩]
  | .selectStatement =>
      [⟨"ctes", .children .cte⟩, ⟨"selects", .children .select⟩, ⟨"order_by", .child .orderBy⟩,
       ⟨"options", .child .optionHints⟩]
  | .select =>
      [⟨"set_operator", .optionalSetOperator⟩, ⟨"top", .child .top⟩, ⟨"distinct", .flag⟩,
       ⟨"columns", .children .column⟩, ⟨"from", .children .relation⟩, ⟨"pivot", .child .pivot⟩,
       ⟨"where_clause", .child .condition⟩, ⟨"group_by", .child .groupBy⟩,
       ⟨"having", .child .condition⟩]
  | .cte => [⟨"name", .identifier⟩, ⟨"columns", .identifiers⟩, ⟨"select", .child .statement⟩]
  | .top => [⟨"count", .child .column⟩, ⟨"percent", .flag⟩, ⟨"with_ties", .flag⟩]
  | .pivot =>
      [⟨"aggregation", .child .column⟩, ⟨"pivot_column", .child .column⟩,
       ⟨"values", .children .column⟩, ⟨"alias", .identifier⟩]
  | .groupBy => [⟨"grouping_sets", .flag⟩, ⟨"sets", .children .groupingSet⟩]
  | .groupingSet => [⟨"kind", .groupingKind⟩, ⟨"columns", .children .column⟩]
  | .orderBy =>
      [⟨"items", .children .orderItem⟩, ⟨"offset", .child .column⟩, ⟨"fetch", .child .column⟩]
  | .orderItem =>
      [⟨"column", .child .column⟩, ⟨"collation", .optionalText⟩, ⟨"direction", .sortDirection⟩]
  | .window =>
      [⟨"partition_by", .children .column⟩, ⟨"order_by", .children .orderItem⟩,
       ⟨"frame", .optionalFrameUnit⟩, ⟨"lower", .optionalInteger⟩, ⟨"upper", .optionalInteger⟩]
  | .optionHints => [⟨"hints", .texts⟩]
  | .join =>
      [⟨"join_type", .joinType⟩, ⟨"relation", .child .relation⟩, ⟨"on", .child .condition⟩]
  | .arithmeticOperation => [⟨"operator", .arithmeticOperator⟩, ⟨"operand", .child .column⟩]
  | .conditionLink => [⟨"operator", .logicOperator⟩, ⟨"condition", .child .condition⟩]
  | .caseBranch =>
      [⟨"condition", .child .condition⟩, ⟨"value", .child .column⟩, ⟨"result", .child .column⟩]

end SelectTree
