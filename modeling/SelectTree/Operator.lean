/-
Module: SelectTree.Operator
Purpose: the closed choices that a query makes: operators, functions, kinds of join, and so on.
Main exports: ArithmeticOperator, ComparisonOperator, AggregateFunction, JoinType, SetOperator
-/

namespace SelectTree

/-- Binary operators of an arithmetic run. -/
inductive ArithmeticOperator where
  | add | subtract | multiply | divide | modulo | concat
deriving Repr, Inhabited, DecidableEq

/-- The written form. -/
def ArithmeticOperator.text : ArithmeticOperator → String
  | .add => "+"
  | .subtract => "-"
  | .multiply => "*"
  | .divide => "/"
  | .modulo => "%"
  | .concat => "||"

/-- All arithmetic operators. -/
def ArithmeticOperator.all : List ArithmeticOperator :=
  [.add, .subtract, .multiply, .divide, .modulo, .concat]

/-- Operators between two columns, pattern matching included. -/
inductive ComparisonOperator where
  | eq | notEq | lt | ltEq | gt | gtEq | like | notLike
deriving Repr, Inhabited, DecidableEq

/-- The written form. -/
def ComparisonOperator.text : ComparisonOperator → String
  | .eq => "="
  | .notEq => "<>"
  | .lt => "<"
  | .ltEq => "<="
  | .gt => ">"
  | .gtEq => ">="
  | .like => "LIKE"
  | .notLike => "NOT LIKE"

/-- All comparison operators. -/
def ComparisonOperator.all : List ComparisonOperator :=
  [.eq, .notEq, .lt, .ltEq, .gt, .gtEq, .like, .notLike]

/-- The comparison operators that compare by order; these may be quantified. -/
inductive OrderOperator where
  | eq | notEq | lt | ltEq | gt | gtEq
deriving Repr, Inhabited, DecidableEq

/-- An order operator as a comparison operator. -/
def OrderOperator.toComparison : OrderOperator → ComparisonOperator
  | .eq => .eq
  | .notEq => .notEq
  | .lt => .lt
  | .ltEq => .ltEq
  | .gt => .gt
  | .gtEq => .gtEq

/-- Connectives of a condition chain. -/
inductive LogicOperator where
  | and | or
deriving Repr, Inhabited, DecidableEq

/-- Quantifiers of a comparison with a subselect; `SOME` means `ANY`. -/
inductive Quantifier where
  | any | all
deriving Repr, Inhabited, DecidableEq

/-- The written form. -/
def Quantifier.text : Quantifier → String
  | .any => "ANY"
  | .all => "ALL"

/-- Both quantifiers. -/
def Quantifier.both : List Quantifier :=
  [.any, .all]

/-- Aggregations known by name. -/
inductive AggregateFunction where
  | count | countBig | sum | avg | min | max | stdev | stdevp | var | varp | stringAgg
deriving Repr, Inhabited, DecidableEq

/-- The written form. -/
def AggregateFunction.text : AggregateFunction → String
  | .count => "COUNT"
  | .countBig => "COUNT_BIG"
  | .sum => "SUM"
  | .avg => "AVG"
  | .min => "MIN"
  | .max => "MAX"
  | .stdev => "STDEV"
  | .stdevp => "STDEVP"
  | .var => "VAR"
  | .varp => "VARP"
  | .stringAgg => "STRING_AGG"

/-- All aggregations. -/
def AggregateFunction.all : List AggregateFunction :=
  [.count, .countBig, .sum, .avg, .min, .max, .stdev, .stdevp, .var, .varp, .stringAgg]

/-- The aggregation of this name, whatever the case of its ASCII letters. -/
def AggregateFunction.ofName? (name : String) : Option AggregateFunction :=
  all.find? fun function => function.text == name.toUpper

/-- Ways to put a select block behind another. -/
inductive SetOperator where
  | union | unionAll | intersect | except
deriving Repr, Inhabited, DecidableEq

/-- The written form. -/
def SetOperator.text : SetOperator → String
  | .union => "UNION"
  | .unionAll => "UNION ALL"
  | .intersect => "INTERSECT"
  | .except => "EXCEPT"

/-- All set operators. -/
def SetOperator.all : List SetOperator :=
  [.union, .unionAll, .intersect, .except]

/-- Kinds of join. -/
inductive JoinType where
  | inner | left | right | full | cross | crossApply | outerApply
deriving Repr, Inhabited, DecidableEq

/-- The join carries an `ON` condition. -/
def JoinType.requiresOn : JoinType → Bool
  | .inner | .left | .right | .full => true
  | .cross | .crossApply | .outerApply => false

/-- The written form. -/
def JoinType.text : JoinType → String
  | .inner => "INNER JOIN"
  | .left => "LEFT JOIN"
  | .right => "RIGHT JOIN"
  | .full => "FULL JOIN"
  | .cross => "CROSS JOIN"
  | .crossApply => "CROSS APPLY"
  | .outerApply => "OUTER APPLY"

/-- All kinds of join. -/
def JoinType.all : List JoinType :=
  [.inner, .left, .right, .full, .cross, .crossApply, .outerApply]

/-- Kinds of grouping set. -/
inductive GroupingKind where
  | columns | rollup | cube
deriving Repr, Inhabited, DecidableEq

/-- The grouping functions, which are written with a keyword and take at least one column. -/
inductive GroupingFunction where
  | rollup | cube
deriving Repr, Inhabited, DecidableEq

/-- The kind of set that a grouping function makes. -/
def GroupingFunction.kind : GroupingFunction → GroupingKind
  | .rollup => .rollup
  | .cube => .cube

/-- The written form. -/
def GroupingFunction.text : GroupingFunction → String
  | .rollup => "ROLLUP"
  | .cube => "CUBE"

/-- Directions of sorting. -/
inductive SortDirection where
  | asc | desc
deriving Repr, Inhabited, DecidableEq

/-- Units in which a window frame is measured. -/
inductive FrameUnit where
  | rows | range
deriving Repr, Inhabited, DecidableEq

end SelectTree
