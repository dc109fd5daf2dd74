/-
Module: SelectTree.Node
Purpose: the nodes of a syntax tree, each family with its kinds and fields.
Main exports: ColumnNode, ConditionNode, RelationNode, ElementNode, Node, Node.kind,
  Node.values, Node.ofValues?, Node.ofValues?_values

Children are numbers of nodes in the same tree.  Every operation on trees sees a node as its
kind and the values of its fields, in the order in which the kind declares them; the two views
determine each other.
-/
import SelectTree.Node.Field

namespace SelectTree

/-- Expressions that have a value. -/
inductive ColumnNode where
  | literal (value : Literal)
  | null
  | star (table : Option Identifier)
  | variable (name : String)
  | primitive (table : Option Identifier) (name : Identifier)
  | function (name : List Identifier) (arguments : List Slot)
  | aggregation (function : AggregateFunction) (distinct : Bool) (arguments : List Slot)
  | cast (value : Slot) (typeName : String) (tryCast : Bool)
  | convert (typeName : String) (value style : Slot) (tryConvert : Bool)
  | parse (value : Slot) (typeName : String) (culture : Slot) (tryParse : Bool)
  | iif (condition thenValue elseValue : Slot)
  | case (operand : Slot) (branches : List Slot) (otherwise : Slot)
  | bracket (inner : Slot)
  | subselect (select : Slot)
  | arithmetic (left : Slot) (operations : List Slot)
  | negated (operand : Slot)
  | windowed (column window : Slot)
  | renamed (column : Slot) (called : Identifier)
deriving Repr, Inhabited, DecidableEq

/-- Expressions that are true, false or unknown. -/
inductive ConditionNode where
  | comparison (left : Slot) (operator : ComparisonOperator) (right : Slot)
  | setComparison (left : Slot) (operator : ComparisonOperator) (quantifier : Quantifier)
      (right : Slot)
  | inList (column : Slot) (negated : Bool) (values : List Slot)
  | inSelect (column : Slot) (negated : Bool) (select : Slot)
  | between (column : Slot) (negated : Bool) (lower upper : Slot)
  | isNull (column : Slot) (negated : Bool)
  | exists (select : Slot)
  | not (condition : Slot)
  | bracket (inner : Slot)
  | chain (left : Slot) (links : List Slot)
deriving Repr, Inhabited, DecidableEq

/-- Where rows come from. -/
inductive RelationNode where
  | table (name : List Identifier) (called : Option Identifier)
  | bracket (inner : Slot)
  | subselect (select : Slot) (called : Identifier)
  | joinChain (left : Slot) (joins : List Slot)
deriving Repr, Inhabited, DecidableEq

/-- Parts that occur only inside of other nodes. -/
inductive ElementNode where
  | cte (name : Identifier) (columns : List Identifier) (select : Slot)
  | top (count : Slot) (percent withTies : Bool)
  | pivot (aggregation pivotColumn : Slot) (values : List Slot) (called : Identifier)
  | groupBy (groupingSets : Bool) (sets : List Slot)
  | groupingSet (kind : GroupingKind) (columns : List Slot)
  | orderBy (items : List Slot) (offset fetch : Slot)
  | orderItem (column : Slot) (collation : Option String) (direction : SortDirection)
  | window (partitionBy orderBy : List Slot) (frame : Option FrameUnit)
      (lower upper : Option Int)
  | optionHints (hints : List String)
  | join (joinType : JoinType) (relation condition : Slot)
  | arithmeticOperation (operator : ArithmeticOperator) (operand : Slot)
  | conditionLink (operator : LogicOperator) (condition : Slot)
  | caseBranch (condition value result : Slot)
deriving Repr, Inhabited, DecidableEq

/-- A node of a syntax tree. -/
inductive Node where
  /-- The anchor of a tree. -/
  | root (child : Slot)
  | column (column : ColumnNode)
  | condition (condition : ConditionNode)
  | relation (relation : RelationNode)
  /-- A whole query. -/
  | statement (ctes selects : List Slot) (orderBy options : Slot)
  /-- One select block of a query. -/
  | select (setOperator : Option SetOperator) (top : Slot) (distinct : Bool)
      (columns sources : List Slot) (pivot filter groupBy having : Slot)
  | element (element : ElementNode)
deriving Repr, DecidableEq

instance : Inhabited Node := ⟨.root none⟩

namespace Node

/-- The kind of a node. -/
def kind : Node → Kind
  | .root _ => .root
  | .column (.literal _) => .literalColumn
  | .column .null => .nullColumn
  | .column (.star _) => .starColumn
  | .column (.variable _) => .variableColumn
  | .column (.primitive _ _) => .primitiveColumn
  | .column (.function _ _) => .functionColumn
  | .column (.aggregation _ _ _) => .aggregationColumn
  | .column (.cast _ _ _) => .castColumn
  | .column (.convert _ _ _ _) => .convertColumn
  | .column (.parse _ _ _ _) => .parseColumn
  | .column (.iif _ _ _) => .iifColumn
  | .column (.case _ _ _) => .caseColumn
  | .column (.bracket _) => .bracketColumn
  | .column (.subselect _) => .subselectColumn
  | .column (.arithmetic _ _) => .arithmeticColumn
  | .column (.negated _) => .negatedColumn
  | .column (.windowed _ _) => .overColumn
  | .column (.renamed _ _) => .aliasColumn
  | .condition (.comparison _ _ _) => .comparisonCondition
  | .condition (.setComparison _ _ _ _) => .setComparisonCondition
  | .condition (.inList _ _ _) => .inListCondition
  | .condition (.inSelect _ _ _) => .inSelectCondition
  | .condition (.between _ _ _ _) => .betweenCondition
  | .condition (.isNull _ _) => .isNullCondition
  | .condition (.exists _) => .existsCondition
  | .condition (.not _) => .notCondition
  | .condition (.bracket _) => .bracketCondition
  | .condition (.chain _ _) => .chainCondition
  | .relation (.table _ _) => .tableRelation
  | .relation (.bracket _) => .bracketRelation
  | .relation (.subselect _ _) => .subselectRelation
  | .relation (.joinChain _ _) => .joinChainRelation
  | .statement _ _ _ _ => .selectStatement
  | .select _ _ _ _ _ _ _ _ _ => .select
  | .element (.cte _ _ _) => .cte
  | .element (.top _ _ _) => .top
  | .element (.pivot _ _ _ _) => .pivot
  | .element (.groupBy _ _) => .groupBy
  | .element (.groupingSet _ _) => .groupingSet
  | .element (.orderBy _ _ _) => .orderBy
  | .element (.orderItem _ _ _) => .orderItem
  | .element (.window _ _ _ _ _) => .window
  | .element (.optionHints _) => .optionHints
  | .element (.join _ _ _) => .join
  | .element (.arithmeticOperation _ _) => .arithmeticOperation
  | .element (.conditionLink _ _) => .conditionLink
  | .element (.caseBranch _ _ _) => .caseBranch

/-- The class of a node. -/
def nodeClass (node : Node) : NodeClass :=
  node.kind.nodeClass

/-- The fields that a node declares. -/
def fields (node : Node) : List FieldDescriptor :=
  node.kind.fields

/-- The contents of the fields, in the order of their declaration. -/
def values : Node → List FieldValue
  | .root child => [.child child]
  | .column (.literal value) => [.literal value]
  | .column .null => []
  | .column (.star table) => [.optionalIdentifier table]
  | .column (.variable name) => [.text name]
  | .column (.primitive table name) => [.optionalIdentifier table, .identifier name]
  | .column (.function name arguments) => [.identifiers name, .children arguments]
  | .column (.aggregation function distinct arguments) =>
      [.aggregateFunction function, .flag distinct, .children arguments]
  | .column (.cast value typeName tryCast) => [.child value, .text typeName, .flag tryCast]
  | .column (.convert typeName value style tryConvert) =>
      [.text typeName, .child value, .child style, .flag tryConvert]
  | .column (.parse value typeName culture tryParse) =>
      [.child value, .text typeName, .child culture, .flag tryParse]
  | .column (.iif conditionSlot thenValue elseValue) =>
      [.child conditionSlot, .child thenValue, .child elseValue]
  | .column (.case operand branches otherwise) =>
      [.child operand, .children branches, .child otherwise]
  | .column (.bracket inner) => [.child inner]
  | .column (.subselect selectSlot) => [.child selectSlot]
  | .column (.arithmetic left operations) => [.child left, .children operations]
  | .column (.negated operand) => [.child operand]
  | .column (.windowed columnSlot window) => [.child columnSlot, .child window]
  | .column (.renamed columnSlot called) => [.child columnSlot, .identifier called]
  | .condition (.comparison left operator right) =>
      [.child left, .comparisonOperator operator, .child right]
  | .condition (.setComparison left operator quantifier right) =>
      [.child left, .comparisonOperator operator, .quantifier quantifier, .child right]
  | .condition (.inList columnSlot negated values) =>
      [.child columnSlot, .flag negated, .children values]
  | .condition (.inSelect columnSlot negated selectSlot) =>
      [.child columnSlot, .flag negated, .child selectSlot]
  | .condition (.between columnSlot negated lower upper) =>
      [.child columnSlot, .flag negated, .child lower, .child upper]
  | .condition (.isNull columnSlot negated) => [.child columnSlot, .flag negated]
  | .condition (.exists selectSlot) => [.child selectSlot]
  | .condition (.not conditionSlot) => [.child conditionSlot]
  | .condition (.bracket inner) => [.child inner]
  | .condition (.chain left links) => [.child left, .children links]
  | .relation (.table name called) => [.identifiers name, .optionalIdentifier called]
  | .relation (.bracket inner) => [.child inner]
  | .relation (.subselect selectSlot called) => [.child selectSlot, .identifier called]
  | .relation (.joinChain left joins) => [.child left, .children joins]
  | .statement ctes selects orderBy options =>
      [.children ctes, .children selects, .child orderBy, .child options]
  | .select setOperator top distinct columns sources pivot filter groupBy having =>
      [.optionalSetOperator setOperator, .child top, .flag distinct, .children columns,
       .children sources, .child pivot, .child filter, .child groupBy, .child having]
  | .element (.cte name columns selectSlot) =>
      [.identifier name, .identifiers columns, .child selectSlot]
  | .element (.top count percent withTies) => [.child count, .flag percent, .flag withTies]
  | .element (.pivot aggregation pivotColumn values called) =>
      [.child aggregation, .child pivotColumn, .children values, .identifier called]
  | .element (.groupBy groupingSets sets) => [.flag groupingSets, .children sets]
  | .element (.groupingSet kind columns) => [.groupingKind kind, .children columns]
  | .element (.orderBy items offset fetch) => [.children items, .child offset, .child fetch]
  | .element (.orderItem columnSlot collation direction) =>
      [.child columnSlot, .optionalText collation, .sortDirection direction]
  | .element (.window partitionBy orderBy frame lower upper) =>
      [.children partitionBy, .children orderBy, .optionalFrameUnit frame,
       .optionalInteger lower, .optionalInteger upper]
  | .element (.optionHints hints) => [.texts hints]
  | .element (.join joinType relationSlot conditionSlot) =>
      [.joinType joinType, .child relationSlot, .child conditionSlot]
  | .element (.arithmeticOperation operator operand) =>
      [.arithmeticOperator operator, .child operand]
  | .element (.conditionLink operator conditionSlot) =>
      [.logicOperator operator, .child conditionSlot]
  | .element (.caseBranch conditionSlot value result) =>
      [.child conditionSlot, .child value, .child result]

/-- The node of a kind with the given contents, if they are of the declared types. -/
def ofValues? : Kind → List FieldValue → Option Node
  | .root, [.child child] => some (.root child)
  | .literalColumn, [.literal value] => some (.column (.literal value))
  | .nullColumn, [] => some (.column .null)
  | .starColumn, [.optionalIdentifier table] => some (.column (.star table))
  | .variableColumn, [.text name] => some (.column (.variable name))
  | .primitiveColumn, [.optionalIdentifier table, .identifier name] =>
      some (.column (.primitive table name))
  | .functionColumn, [.identifiers name, .children arguments] =>
      some (.column (.function name arguments))
  | .aggregationColumn, [.aggregateFunction function, .flag distinct, .children arguments] =>
      some (.column (.aggregation function distinct arguments))
  | .castColumn, [.child value, .text typeName, .flag tryCast] =>
      some (.column (.cast value typeName tryCast))
  | .convertColumn, [.text typeName, .child value, .child style, .flag tryConvert] =>
      some (.column (.convert typeName value style tryConvert))
  | .parseColumn, [.child value, .text typeName, .child culture, .flag tryParse] =>
      some (.column (.parse value typeName culture tryParse))
  | .iifColumn, [.child conditionSlot, .child thenValue, .child elseValue] =>
      some (.column (.iif conditionSlot thenValue elseValue))
  | .caseColumn, [.child operand, .children branches, .child otherwise] =>
      some (.column (.case operand branches otherwise))
  | .bracketColumn, [.child inner] => some (.column (.bracket inner))
  | .subselectColumn, [.child selectSlot] => some (.column (.subselect selectSlot))
  | .arithmeticColumn, [.child left, .children operations] =>
      some (.column (.arithmetic left operations))
  | .negatedColumn, [.child operand] => some (.column (.negated operand))
  | .overColumn, [.child columnSlot, .child window] => some (.column (.windowed columnSlot window))
  | .aliasColumn, [.child columnSlot, .identifier called] =>
      some (.column (.renamed columnSlot called))
  | .comparisonCondition, [.child left, .comparisonOperator operator, .child right] =>
      some (.condition (.comparison left operator right))
  | .setComparisonCondition, [.child left, .comparisonOperator operator, .quantifier quantifier,
      .child right] =>
      some (.condition (.setComparison left operator quantifier right))
  | .inListCondition, [.child columnSlot, .flag negated, .children values] =>
      some (.condition (.inList columnSlot negated values))
  | .inSelectCondition, [.child columnSlot, .flag negated, .child selectSlot] =>
      some (.condition (.inSelect columnSlot negated selectSlot))
  | .betweenCondition, [.child columnSlot, .flag negated, .child lower, .child upper] =>
      some (.condition (.between columnSlot negated lower upper))
  | .isNullCondition, [.child columnSlot, .flag negated] =>
      some (.condition (.isNull columnSlot negated))
  | .existsCondition, [.child selectSlot] => some (.condition (.exists selectSlot))
  | .notCondition, [.child conditionSlot] => some (.condition (.not conditionSlot))
  | .bracketCondition, [.child inner] => some (.condition (.bracket inner))
  | .chainCondition, [.child left, .children links] => some (.condition (.chain left links))
  | .tableRelation, [.identifiers name, .optionalIdentifier called] =>
      some (.relation (.table name called))
  | .bracketRelation, [.child inner] => some (.relation (.bracket inner))
  | .subselectRelation, [.child selectSlot, .identifier called] =>
      some (.relation (.subselect selectSlot called))
  | .joinChainRelation, [.child left, .children joins] =>
      some (.relation (.joinChain left joins))
  | .selectStatement, [.children ctes, .children selects, .child orderBy, .child options] =>
      some (.statement ctes selects orderBy options)
  | .select, [.optionalSetOperator setOperator, .child top, .flag distinct, .children columns,
      .children sources, .child pivot, .child filter, .child groupBy, .child having] =>
      some (.select setOperator top distinct columns sources pivot filter groupBy having)
  | .cte, [.identifier name, .identifiers columns, .child selectSlot] =>
      some (.element (.cte name columns selectSlot))
  | .top, [.child count, .flag percent, .flag withTies] =>
      some (.element (.top count percent withTies))
  | .pivot, [.child aggregation, .child pivotColumn, .children values, .identifier called] =>
      some (.element (.pivot aggregation pivotColumn values called))
  | .groupBy, [.flag groupingSets, .children sets] =>
      some (.element (.groupBy groupingSets sets))
  | .groupingSet, [.groupingKind kind, .children columns] =>
      some (.element (.groupingSet kind columns))
  | .orderBy, [.children items, .child offset, .child fetch] =>
      some (.element (.orderBy items offset fetch))
  | .orderItem, [.child columnSlot, .optionalText collation, .sortDirection direction] =>
      some (.element (.orderItem columnSlot collation direction))
  | .window, [.children partitionBy, .children orderBy, .optionalFrameUnit frame,
      .optionalInteger lower, .optionalInteger upper] =>
      some (.element (.window partitionBy orderBy frame lower upper))
  | .optionHints, [.texts hints] => some (.element (.optionHints hints))
  | .join, [.joinType joinType, .child relationSlot, .child conditionSlot] =>
      some (.element (.join joinType relationSlot conditionSlot))
  | .arithmeticOperation, [.arithmeticOperator operator, .child operand] =>
      some (.element (.arithmeticOperation operator operand))
  | .conditionLink, [.logicOperator operator, .child conditionSlot] =>
      some (.element (.conditionLink operator conditionSlot))
  | .caseBranch, [.child conditionSlot, .child value, .child result] =>
      some (.element (.caseBranch conditionSlot value result))
  | _, _ => none

/-- The kind and the contents of its fields determine a node. -/
@[simp] theorem ofValues?_values (node : Node) : ofValues? node.kind node.values = some node := by
  cases node with
  | root child => rfl
  | column column => cases column <;> rfl
  | condition condition => cases condition <;> rfl
  | relation relation => cases relation <;> rfl
  | statement ctes selects orderBy options => rfl
  | select setOperator top distinct columns sources pivot filter groupBy having => rfl
  | element element => cases element <;> rfl

/-- The node of a kind before anything is put into its fields. -/
def empty (kind : Kind) : Node :=
  (ofValues? kind (kind.fields.map fun field => field.type.empty)).getD default

end Node

end SelectTree
