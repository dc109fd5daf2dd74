/-
Module: SelectTree.Keyword
Purpose: the keywords of the query language and how each may be used.
Main exports: Keyword, Keyword.all, Keyword.text, Keyword.usage, Keyword.ofName?
-/

namespace SelectTree

/-- How a keyword may be used away from its place in the grammar. -/
inductive Keyword.Usage where
  /-- Never a name. -/
  | reserved
  /-- May stand for a name. -/
  | unreserved
  /-- Never a name, and refused by the keyword policy. -/
  | denied
deriving Repr, Inhabited, DecidableEq

/-- The keywords, spelled as in a query. -/
inductive Keyword where
  | ALL | AND | ANY | APPLY | AS | ASC | BETWEEN | BY | CASE | COLLATE | CROSS | CUBE | CURRENT
  | DESC | DISTINCT | ELSE | END | EXCEPT | EXISTS | FETCH | FIRST | FOLLOWING | FOR | FROM
  | FULL | GROUP | GROUPING | HAVING | IN | INNER | INTERSECT | IS | JOIN | LEFT | LIKE | NEXT
  | NOT | NULL | OFFSET | ON | ONLY | OPTION | OR | ORDER | OUTER | OVER | PARTITION | PERCENT
  | PIVOT | PRECEDING | RANGE | REPLICATE | ABS | RIGHT | ROLLUP | ROW | ROWS | SELECT | SETS
  | SOME | THEN | TIES | TOP | UNBOUNDED | UNION | USING | WHEN | WHERE | WITH | ALTER | BACKUP
  | BEGIN | COMMIT | CREATE | DECLARE | DELETE | DENY | DROP | EXEC | EXECUTE | GRANT | INSERT
  | INTO | MERGE | RESTORE | REVOKE | ROLLBACK | SET | TRUNCATE | UPDATE | USE
deriving Repr, Inhabited, DecidableEq

namespace Keyword

/-- All keywords in the order of their declaration: those of the grammar first, then the denied
ones, which stand in alphabetical order. -/
def all : List Keyword :=
  [.ALL, .AND, .ANY, .APPLY, .AS, .ASC, .BETWEEN, .BY, .CASE, .COLLATE, .CROSS, .CUBE,
   .CURRENT, .DESC, .DISTINCT, .ELSE, .END, .EXCEPT, .EXISTS, .FETCH, .FIRST, .FOLLOWING, .FOR,
   .FROM, .FULL, .GROUP, .GROUPING, .HAVING, .IN, .INNER, .INTERSECT, .IS, .JOIN, .LEFT, .LIKE,
   .NEXT, .NOT, .NULL, .OFFSET, .ON, .ONLY, .OPTION, .OR, .ORDER, .OUTER, .OVER, .PARTITION,
   .PERCENT, .PIVOT, .PRECEDING, .RANGE, .REPLICATE, .ABS, .RIGHT, .ROLLUP, .ROW, .ROWS,
   .SELECT, .SETS, .SOME, .THEN, .TIES, .TOP, .UNBOUNDED, .UNION, .USING, .WHEN, .WHERE, .WITH,
   .ALTER, .BACKUP, .BEGIN, .COMMIT, .CREATE, .DECLARE, .DELETE, .DENY, .DROP, .EXEC, .EXECUTE,
   .GRANT, .INSERT, .INTO, .MERGE, .RESTORE, .REVOKE, .ROLLBACK, .SET, .TRUNCATE, .UPDATE, .USE]

/-- The upper-case spelling. -/
def text : Keyword → String
  | .ALL => "ALL"
  | .AND => "AND"
  | .ANY => "ANY"
  | .APPLY => "APPLY"
  | .AS => "AS"
  | .ASC => "ASC"
  | .BETWEEN => "BETWEEN"
  | .BY => "BY"
  | .CASE => "CASE"
  | .COLLATE => "COLLATE"
  | .CROSS => "CROSS"
  | .CUBE => "CUBE"
  | .CURRENT => "CURRENT"
  | .DESC => "DESC"
  | .DISTINCT => "DISTINCT"
  | .ELSE => "ELSE"
  | .END => "END"
  | .EXCEPT => "EXCEPT"
  | .EXISTS => "EXISTS"
  | .FETCH => "FETCH"
  | .FIRST => "FIRST"
  | .FOLLOWING => "FOLLOWING"
  | .FOR => "FOR"
  | .FROM => "FROM"
  | .FULL => "FULL"
  | .GROUP => "GROUP"
  | .GROUPING => "GROUPING"
  | .HAVING => "HAVING"
  | .IN => "IN"
  | .INNER => "INNER"
  | .INTERSECT => "INTERSECT"
  | .IS => "IS"
  | .JOIN => "JOIN"
  | .LEFT => "LEFT"
  | .LIKE => "LIKE"
  | .NEXT => "NEXT"
  | .NOT => "NOT"
  | .NULL => "NULL"
  | .OFFSET => "OFFSET"
  | .ON => "ON"
  | .ONLY => "ONLY"
  | .OPTION => "OPTION"
  | .OR => "OR"
  | .ORDER => "ORDER"
  | .OUTER => "OUTER"
  | .OVER => "OVER"
  | .PARTITION => "PARTITION"
  | .PERCENT => "PERCENT"
  | .PIVOT => "PIVOT"
  | .PRECEDING => "PRECEDING"
  | .RANGE => "RANGE"
  | .REPLICATE => "REPLICATE"
  | .ABS => "ABS"
  | .RIGHT => "RIGHT"
  | .ROLLUP => "ROLLUP"
  | .ROW => "ROW"
  | .ROWS => "ROWS"
  | .SELECT => "SELECT"
  | .SETS => "SETS"
  | .SOME => "SOME"
  | .THEN => "THEN"
  | .TIES => "TIES"
  | .TOP => "TOP"
  | .UNBOUNDED => "UNBOUNDED"
  | .UNION => "UNION"
  | .USING => "USING"
  | .WHEN => "WHEN"
  | .WHERE => "WHERE"
  | .WITH => "WITH"
  | .ALTER => "ALTER"
  | .BACKUP => "BACKUP"
  | .BEGIN => "BEGIN"
  | .COMMIT => "COMMIT"
  | .CREATE => "CREATE"
  | .DECLARE => "DECLARE"
  | .DELETE => "DELETE"
  | .DENY => "DENY"
  | .DROP => "DROP"
  | .EXEC => "EXEC"
  | .EXECUTE => "EXECUTE"
  | .GRANT => "GRANT"
  | .INSERT => "INSERT"
  | .INTO => "INTO"
  | .MERGE => "MERGE"
  | .RESTORE => "RESTORE"
  | .REVOKE => "REVOKE"
  | .ROLLBACK => "ROLLBACK"
  | .SET => "SET"
  | .TRUNCATE => "TRUNCATE"
  | .UPDATE => "UPDATE"
  | .USE => "USE"

/-- How the keyword may be used. -/
def usage : Keyword → Usage
  | .APPLY | .CUBE | .FIRST | .FOLLOWING | .GROUPING | .NEXT | .OFFSET | .ONLY | .PARTITION
  | .PRECEDING | .RANGE | .REPLICATE | .ABS | .ROLLUP | .ROW | .ROWS | .SETS | .TIES
  | .UNBOUNDED | .USING => .unreserved
  | .ALTER | .BACKUP | .BEGIN | .COMMIT | .CREATE | .DECLARE | .DELETE | .DENY | .DROP | .EXEC
  | .EXECUTE | .GRANT | .INSERT | .INTO | .MERGE | .RESTORE | .REVOKE | .ROLLBACK | .SET
  | .TRUNCATE | .UPDATE | .USE => .denied
  | _ => .reserved

/-- The keyword can never stand for a name. -/
def isReserved (keyword : Keyword) : Bool :=
  keyword.usage != .unreserved

/-- The keyword policy refuses input that contains the keyword. -/
def isDenied (keyword : Keyword) : Bool :=
  keyword.usage == .denied

/-- Before an opening bracket the keyword is the name of a scalar function. -/
def isFunction : Keyword → Bool
  | .LEFT | .RIGHT | .REPLICATE | .ABS => true
  | _ => false

/-- The keywords that the policy refuses, in alphabetical order. -/
def denied : List Keyword :=
  all.filter isDenied

/-- The keyword with this spelling, whatever the case of its ASCII letters. -/
def ofName? (name : List Char) : Option Keyword :=
  let upper := name.map Char.toUpper
  all.find? fun keyword => keyword.text.toList == upper

/-- No keyword is missing from the list. -/
theorem mem_all (keyword : Keyword) : keyword ∈ all := by
  cases keyword <;> decide

/-- No keyword occurs twice in the list. -/
theorem nodup_all : all.Nodup := by
  decide +kernel

end Keyword

end SelectTree
