/-
Module: SelectTree.Phrase
Purpose: what the grammar recognises: queries and their parts as typed trees.
Main exports: Form, Phrase, Phrases, Perhaps, Verbatim, NamePath, FrameBound, Frame

A phrase has a form, and each constructor says of which forms its parts must be.  So runs and
chains are flat, lists that need an item have one, and a join carries a condition exactly when
its type requires one, in every phrase there is.
-/
import SelectTree.Identifier
import SelectTree.Literal
import SelectTree.Operator

namespace SelectTree

/-- Source text that is kept as written and is not empty. -/
structure Verbatim where
  text : String
  text_ne_empty : text ≠ ""
deriving Repr, DecidableEq

/-- A name of at least one part and at most `limit` parts. -/
structure NamePath (limit : Nat) where
  parts : List Identifier
  parts_ne_nil : parts ≠ []
  length_le : parts.length ≤ limit
deriving Repr, DecidableEq

/-- A name of one part. -/
def NamePath.single {limit : Nat} (part : Identifier) : NamePath (limit + 1) where
  parts := [part]
  parts_ne_nil := List.cons_ne_nil part []
  length_le := Nat.le_add_left 1 limit

/-- The side of the current row on which a frame bound lies. -/
inductive FrameSide where
  | preceding | following
deriving Repr, Inhabited, DecidableEq

/-- A bound of a window frame as written. -/
inductive FrameBound where
  | unbounded (side : FrameSide)
  | currentRow
  | offset (count : Int) (side : FrameSide)
deriving Repr, Inhabited, DecidableEq

/-- The signed distance of a bound from the current row, negative for preceding rows; nothing
for an unbounded one. -/
def FrameBound.distance : FrameBound → Option Int
  | .unbounded _ => none
  | .currentRow => some 0
  | .offset count .preceding => some (-count)
  | .offset count .following => some count

/-- A window frame: its unit and its lower and upper bound as signed distances. -/
structure Frame where
  unit : FrameUnit
  lower : Option Int
  upper : Option Int
deriving Repr, Inhabited, DecidableEq

/-- The frame between two bounds. -/
def Frame.between (unit : FrameUnit) (lower upper : FrameBound) : Frame :=
  { unit, lower := lower.distance, upper := upper.distance }

/-- The frame with a single bound.  A bound behind the current row is the upper one, any other
the lower one, and the opposite bound is the current row. -/
def Frame.single (unit : FrameUnit) (bound : FrameBound) : Frame :=
  match bound.distance with
  | some distance =>
      if 0 < distance then { unit, lower := some 0, upper := some distance }
      else { unit, lower := some distance, upper := some 0 }
  | none => { unit, lower := none, upper := some 0 }

/-- The forms of phrases. -/
inductive Form where
  /-- One operand of an arithmetic run. -/
  | operand
  /-- An arithmetic run and perhaps a window. -/
  | column
  /-- An operator and the operand behind it. -/
  | operation
  /-- A branch with a condition. -/
  | searchedBranch
  /-- A branch with a value to compare with. -/
  | simpleBranch
  | window
  | orderItem
  /-- A chain of terms. -/
  | condition
  /-- A connective and the term behind it. -/
  | link
  /-- One term of a condition. -/
  | term
  /-- A chain of joined sources. -/
  | relation
  | join
  /-- One source of rows. -/
  | source
  /-- A column of a select list with its alias. -/
  | selectColumn
  | top
  | pivot
  | groupBy
  | groupingSet
  /-- A grouping function and its columns. -/
  | functionSet
  /-- An element of a list to group by. -/
  | groupElement
  | orderBy
  | optionHints
  /-- A select block; the first of a statement, or one behind a set operator. -/
  | block (chained : Bool)
  | cte
  | statement
deriving Repr, Inhabited, DecidableEq

/-- What joins a select block to the one before it; the first block has nothing before it. -/
inductive Connective : Bool → Type where
  | start : Connective false
  | chained (operator : SetOperator) : Connective true
deriving Repr

/-- The set operator in front of a block. -/
def Connective.operator? : {chained : Bool} → Connective chained → Option SetOperator
  | _, .start => none
  | _, .chained operator => some operator

mutual

/-- A part of a query. -/
inductive Phrase : Form → Type where
  | literal (value : Literal) : Phrase .operand
  | null : Phrase .operand
  /-- Written `*` or `table.*`. -/
  | star (table : Option Identifier) : Phrase .operand
  /-- Written `@name`. -/
  | variable (name : String) : Phrase .operand
  /-- Written `name` or `table.name`. -/
  | reference (table : Option Identifier) (name : Identifier) : Phrase .operand
  /-- Written `name(arguments)`. -/
  | function (name : NamePath 2) (arguments : Phrases .column) : Phrase .operand
  /-- Written `SUM(DISTINCT argument)` and the like. -/
  | aggregation (function : AggregateFunction) (distinct : Bool) (first : Phrase .column)
      (others : Phrases .column) : Phrase .operand
  /-- Written `CAST(value AS type)`; lenient with `TRY_` in front, here and below. -/
  | cast (lenient : Bool) (value : Phrase .column) (type : Verbatim) : Phrase .operand
  /-- Written `CONVERT(type, value [, style])`. -/
  | convert (lenient : Bool) (type : Verbatim) (value : Phrase .column)
      (style : Perhaps .column) : Phrase .operand
  /-- Written `PARSE(value AS type [USING culture])`. -/
  | parse (lenient : Bool) (value : Phrase .column) (type : Verbatim)
      (culture : Perhaps .column) : Phrase .operand
  /-- Written `IIF(condition, value, otherwise)`. -/
  | iif (condition : Phrase .condition) (value otherwise : Phrase .column) : Phrase .operand
  /-- Written `CASE WHEN condition THEN result ... END`. -/
  | searchedCase (first : Phrase .searchedBranch) (others : Phrases .searchedBranch)
      (otherwise : Perhaps .column) : Phrase .operand
  /-- Written `CASE operand WHEN value THEN result ... END`. -/
  | simpleCase (operand : Phrase .column) (first : Phrase .simpleBranch)
      (others : Phrases .simpleBranch) (otherwise : Perhaps .column) : Phrase .operand
  /-- Written `(column)`. -/
  | bracketedColumn (inner : Phrase .column) : Phrase .operand
  /-- Written `(SELECT ...)`. -/
  | subselect (statement : Phrase .statement) : Phrase .operand
  /-- Written `-operand`. -/
  | negated (operand : Phrase .operand) : Phrase .operand
  | column (left : Phrase .operand) (operations : Phrases .operation)
      (window : Perhaps .window) : Phrase .column
  | operation (operator : ArithmeticOperator) (operand : Phrase .operand) : Phrase .operation
  | searchedBranch (condition : Phrase .condition) (result : Phrase .column) :
      Phrase .searchedBranch
  | simpleBranch (value result : Phrase .column) : Phrase .simpleBranch
  | window (partitionBy : Phrases .column) (orderBy : Phrases .orderItem)
      (frame : Option Frame) : Phrase .window
  | orderItem (column : Phrase .column) (collation : Option String)
      (direction : SortDirection) : Phrase .orderItem
  | condition (left : Phrase .term) (links : Phrases .link) : Phrase .condition
  | link (operator : LogicOperator) (term : Phrase .term) : Phrase .link
  | comparison (left : Phrase .column) (operator : OrderOperator) (right : Phrase .column) :
      Phrase .term
  | like (left : Phrase .column) (negated : Bool) (right : Phrase .column) : Phrase .term
  /-- Written `column = ANY (SELECT ...)` and the like. -/
  | setComparison (left : Phrase .column) (operator : OrderOperator) (quantifier : Quantifier)
      (statement : Phrase .statement) : Phrase .term
  | inList (column : Phrase .column) (negated : Bool) (first : Phrase .column)
      (others : Phrases .column) : Phrase .term
  | inSelect (column : Phrase .column) (negated : Bool) (statement : Phrase .statement) :
      Phrase .term
  | between (column : Phrase .column) (negated : Bool) (lower upper : Phrase .column) :
      Phrase .term
  | isNull (column : Phrase .column) (negated : Bool) : Phrase .term
  | exists (statement : Phrase .statement) : Phrase .term
  | not (term : Phrase .term) : Phrase .term
  /-- Written `(condition)`. -/
  | bracketedCondition (inner : Phrase .condition) : Phrase .term
  | relation (left : Phrase .source) (joins : Phrases .join) : Phrase .relation
  /-- A join of a type that carries a condition. -/
  | joinOn (type : JoinType) (requires : type.requiresOn = true) (source : Phrase .source)
      (condition : Phrase .condition) : Phrase .join
  /-- A join of a type that carries none. -/
  | joinFree (type : JoinType) (free : type.requiresOn = false) (source : Phrase .source) :
      Phrase .join
  | table (name : NamePath 3) (called : Option Identifier) : Phrase .source
  /-- Written `(relation)`. -/
  | bracketedRelation (inner : Phrase .relation) : Phrase .source
  /-- Written `(SELECT ...) alias`. -/
  | derived (statement : Phrase .statement) (called : Identifier) : Phrase .source
  | selectColumn (column : Phrase .column) (called : Option Identifier) : Phrase .selectColumn
  | top (count : Phrase .operand) (percent withTies : Bool) : Phrase .top
  | pivot (aggregation pivotColumn : Phrase .column) (first : Phrase .column)
      (others : Phrases .column) (called : Identifier) : Phrase .pivot
  /-- Written `GROUP BY GROUPING SETS (sets)`. -/
  | groupingSets (first : Phrase .groupingSet) (others : Phrases .groupingSet) :
      Phrase .groupBy
  /-- Written `GROUP BY elements`. -/
  | groupList (first : Phrase .groupElement) (others : Phrases .groupElement) :
      Phrase .groupBy
  /-- A set of plain columns, perhaps none. -/
  | columnSet (columns : Phrases .column) : Phrase .groupingSet
  /-- Written `ROLLUP (columns)` or `CUBE (columns)`. -/
  | functionSet (function : GroupingFunction) (first : Phrase .column)
      (others : Phrases .column) : Phrase .functionSet
  /-- A grouping function as one of the sets. -/
  | functionGroup (set : Phrase .functionSet) : Phrase .groupingSet
  | plainElement (column : Phrase .column) : Phrase .groupElement
  | functionElement (set : Phrase .functionSet) : Phrase .groupElement
  | orderBy (first : Phrase .orderItem) (others : Phrases .orderItem)
      (offset fetch : Perhaps .column) : Phrase .orderBy
  | optionHints (first : Verbatim) (others : List Verbatim) : Phrase .optionHints
  | block {chained : Bool} (connective : Connective chained) (top : Perhaps .top)
      (distinct : Bool) (first : Phrase .selectColumn) (others : Phrases .selectColumn)
      (sources : Phrases .relation) (pivot : Perhaps .pivot) (filter : Perhaps .condition)
      (groupBy : Perhaps .groupBy) (having : Perhaps .condition) : Phrase (.block chained)
  | cte (name : Identifier) (columns : List Identifier) (statement : Phrase .statement) :
      Phrase .cte
  | statement (ctes : Phrases .cte) (first : Phrase (.block false))
      (others : Phrases (.block true)) (orderBy : Perhaps .orderBy)
      (options : Perhaps .optionHints) : Phrase .statement

/-- A phrase that may be missing. -/
inductive Perhaps : Form → Type where
  | absent {form : Form} : Perhaps form
  | present {form : Form} (phrase : Phrase form) : Perhaps form

/-- A list of phrases of one form. -/
inductive Phrases : Form → Type where
  | nil {form : Form} : Phrases form
  | cons {form : Form} (first : Phrase form) (others : Phrases form) : Phrases form

end

namespace Phrases

/-- The items of an ordinary list. -/
def ofList {form : Form} : List (Phrase form) → Phrases form
  | [] => .nil
  | phrase :: phrases => .cons phrase (ofList phrases)

/-- The items as an ordinary list. -/
def toList {form : Form} : Phrases form → List (Phrase form)
  | .nil => []
  | .cons phrase phrases => phrase :: toList phrases

@[simp] theorem toList_ofList {form : Form} (phrases : List (Phrase form)) :
    (ofList phrases).toList = phrases := by
  induction phrases with
  | nil => rfl
  | cons phrase phrases ih => simp [ofList, toList, ih]

end Phrases

/-- One operand of an arithmetic run. -/
abbrev Operand := Phrase .operand
/-- An arithmetic run and perhaps a window. -/
abbrev Column := Phrase .column
/-- A chain of terms. -/
abbrev Condition := Phrase .condition
/-- One term of a condition. -/
abbrev Term := Phrase .term
/-- A chain of joined sources. -/
abbrev Relation := Phrase .relation
/-- A whole query. -/
abbrev Statement := Phrase .statement

end SelectTree
