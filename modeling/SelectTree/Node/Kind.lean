/-
Module: SelectTree.Node.Kind
Purpose: the kinds of tree node and the classes of node that a field can demand.
Main exports: NodeClass, NodeClass.accepts, Kind, Kind.name, Kind.nodeClass
-/

namespace SelectTree

/-- What a field demands of a node in it. -/
inductive NodeClass where
  /-- Any node but a root. -/
  | any
  | root
  | column
  | condition
  | relation
  | statement
  | select
  | cte
  | top
  | pivot
  | groupBy
  | groupingSet
  | orderBy
  | orderItem
  | window
  | optionHints
  | join
  | arithmeticOperation
  | conditionLink
  | caseBranch
deriving Repr, Inhabited, DecidableEq

namespace NodeClass

/-- The shown form. -/
def name : NodeClass → String
  | .any => "Any"
  | .root => "Root"
  | .column => "Column"
  | .condition => "Condition"
  | .relation => "Relation"
  | .statement => "Statement"
  | .select => "Select"
  | .cte => "Cte"
  | .top => "Top"
  | .pivot => "Pivot"
  | .groupBy => "GroupBy"
  | .groupingSet => "GroupingSet"
  | .orderBy => "OrderBy"
  | .orderItem => "OrderItem"
  | .window => "Window"
  | .optionHints => "OptionHints"
  | .join => "Join"
  | .arithmeticOperation => "ArithmeticOperation"
  | .conditionLink => "ConditionLink"
  | .caseBranch => "CaseBranch"

/-- All classes. -/
def all : List NodeClass :=
  [.any, .root, .column, .condition, .relation, .statement, .select, .cte, .top, .pivot,
   .groupBy, .groupingSet, .orderBy, .orderItem, .window, .optionHints, .join,
   .arithmeticOperation, .conditionLink, .caseBranch]

/-- The class with this shown form. -/
def ofName? (name : String) : Option NodeClass :=
  all.find? fun nodeClass => nodeClass.name == name

/-- A field that demands the first class can hold a node of the second.  A root fits
nowhere. -/
def accepts (demanded found : NodeClass) : Bool :=
  found != .root && (demanded == .any || demanded == found)

end NodeClass

/-- The kinds of node. -/
inductive Kind where
  | root | literalColumn | nullColumn | starColumn | variableColumn | primitiveColumn
  | functionColumn | aggregationColumn | castColumn | convertColumn | parseColumn | iifColumn
  | caseColumn | bracketColumn | subselectColumn | arithmeticColumn | negatedColumn | overColumn
  | aliasColumn | comparisonCondition | setComparisonCondition | inListCondition
  | inSelectCondition | betweenCondition | isNullCondition | existsCondition | notCondition
  | bracketCondition | chainCondition | tableRelation | bracketRelation | subselectRelation
  | joinChainRelation | selectStatement | select | cte | top | pivot | groupBy | groupingSet
  | orderBy | orderItem | window | optionHints | join | arithmeticOperation | conditionLink
  | caseBranch
deriving Repr, Inhabited, DecidableEq

namespace Kind

/-- All kinds. -/
def all : List Kind :=
  [.root, .literalColumn, .nullColumn, .starColumn, .variableColumn, .primitiveColumn,
   .functionColumn, .aggregationColumn, .castColumn, .convertColumn, .parseColumn, .iifColumn,
   .caseColumn, .bracketColumn, .subselectColumn, .arithmeticColumn, .negatedColumn, .overColumn,
   .aliasColumn, .comparisonCondition, .setComparisonCondition, .inListCondition,
   .inSelectCondition, .betweenCondition, .isNullCondition, .existsCondition, .notCondition,
   .bracketCondition, .chainCondition, .tableRelation, .bracketRelation, .subselectRelation,
   .joinChainRelation, .selectStatement, .select, .cte, .top, .pivot, .groupBy, .groupingSet,
   .orderBy, .orderItem, .window, .optionHints, .join, .arithmeticOperation, .conditionLink,
   .caseBranch]

/-- The shown form. -/
def name : Kind → String
  | .root => "Root"
  | .literalColumn => "LiteralColumn"
  | .nullColumn => "NullColumn"
  | .starColumn => "StarColumn"
  | .variableColumn => "VariableColumn"
  | .primitiveColumn => "PrimitiveColumn"
  | .functionColumn => "FunctionColumn"
  | .aggregationColumn => "AggregationColumn"
  | .castColumn => "CastColumn"
  | .convertColumn => "ConvertColumn"
  | .parseColumn => "ParseColumn"
  | .iifColumn => "IifColumn"
  | .caseColumn => "CaseColumn"
  | .bracketColumn => "BracketColumn"
  | .subselectColumn => "SubselectColumn"
  | .arithmeticColumn => "ArithmeticColumn"
  | .negatedColumn => "NegatedColumn"
  | .overColumn => "OverColumn"
  | .aliasColumn => "AliasColumn"
  | .comparisonCondition => "ComparisonCondition"
  | .setComparisonCondition => "SetComparisonCondition"
  | .inListCondition => "InListCondition"
  | .inSelectCondition => "InSelectCondition"
  | .betweenCondition => "BetweenCondition"
  | .isNullCondition => "IsNullCondition"
  | .existsCondition => "ExistsCondition"
  | .notCondition => "NotCondition"
  | .bracketCondition => "BracketCondition"
  | .chainCondition => "ChainCondition"
  | .tableRelation => "TableRelation"
  | .bracketRelation => "BracketRelation"
  | .subselectRelation => "SubselectRelation"
  | .joinChainRelation => "JoinChainRelation"
  | .selectStatement => "SelectStatement"
  | .select => "Select"
  | .cte => "Cte"
  | .top => "Top"
  | .pivot => "Pivot"
  | .groupBy => "GroupBy"
  | .groupingSet => "GroupingSet"
  | .orderBy => "OrderBy"
  | .orderItem => "OrderItem"
  | .window => "Window"
  | .optionHints => "OptionHints"
  | .join => "Join"
  | .arithmeticOperation => "ArithmeticOperation"
  | .conditionLink => "ConditionLink"
  | .caseBranch => "CaseBranch"

/-- The kind with this shown form. -/
def ofName? (name : String) : Option Kind :=
  all.find? fun kind => kind.name == name

/-- The class of the nodes of a kind. -/
def nodeClass : Kind → NodeClass
  | .root => .root
  | .literalColumn | .nullColumn | .starColumn | .variableColumn | .primitiveColumn
  | .functionColumn | .aggregationColumn | .castColumn | .convertColumn | .parseColumn
  | .iifColumn | .caseColumn | .bracketColumn | .subselectColumn | .arithmeticColumn
  | .negatedColumn | .overColumn | .aliasColumn => .column
  | .comparisonCondition | .setComparisonCondition | .inListCondition | .inSelectCondition
  | .betweenCondition | .isNullCondition | .existsCondition | .notCondition | .bracketCondition
  | .chainCondition => .condition
  | .tableRelation | .bracketRelation | .subselectRelation | .joinChainRelation => .relation
  | .selectStatement => .statement
  | .select => .select
  | .cte => .cte
  | .top => .top
  | .pivot => .pivot
  | .groupBy => .groupBy
  | .groupingSet => .groupingSet
  | .orderBy => .orderBy
  | .orderItem => .orderItem
  | .window => .window
  | .optionHints => .optionHints
  | .join => .join
  | .arithmeticOperation => .arithmeticOperation
  | .conditionLink => .conditionLink
  | .caseBranch => .caseBranch

end Kind

end SelectTree
