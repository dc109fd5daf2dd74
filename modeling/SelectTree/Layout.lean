/-
Module: SelectTree.Layout
Purpose: phrases as nodes of a tree, numbered in the order in which they are recognised.
Main exports: Layout, Layout.emit, Phrase.layout, Tree.attachAll, Tree.plant

A phrase becomes a run of nodes in which every node stands behind its children, and the last
node is the whole phrase.  Where the run begins decides the numbers and nothing else.
-/
import SelectTree.Phrase
import SelectTree.Tree

namespace SelectTree

/-- Nodes to be added behind a given number of nodes, with a result that may name them. -/
def Layout (α : Type) : Type :=
  Nat → α × List Node

namespace Layout

/-- The result and the nodes, when so many nodes are there before. -/
def run {α : Type} (layout : Layout α) (start : Nat) : α × List Node :=
  layout start

instance : Monad Layout where
  pure value := fun _ => (value, [])
  bind first next := fun start =>
    let (value, nodes) := first start
    let (result, more) := next value (start + nodes.length)
    (result, nodes ++ more)

/-- Adds one node and names it. -/
def emit (node : Node) : Layout NodeId :=
  fun start => ({ index := start }, [node])

@[simp] theorem run_pure {α : Type} (value : α) (start : Nat) :
    (pure value : Layout α).run start = (value, []) := rfl

@[simp] theorem run_bind {α β : Type} (first : Layout α) (next : α → Layout β) (start : Nat) :
    (first >>= next).run start =
      (((next (first.run start).1).run (start + (first.run start).2.length)).1,
        (first.run start).2 ++
          ((next (first.run start).1).run (start + (first.run start).2.length)).2) := rfl

@[simp] theorem run_map {α β : Type} (convert : α → β) (layout : Layout α) (start : Nat) :
    (convert <$> layout).run start = (convert (layout.run start).1, (layout.run start).2) := by
  change ((layout >>= fun value => pure (convert value)) : Layout β).run start = _
  simp

@[simp] theorem run_emit (node : Node) (start : Nat) :
    (emit node).run start = ({ index := start }, [node]) := rfl

end Layout

/-- The element to group by is a plain column. -/
def Phrase.isPlainElement : {form : Form} → Phrase form → Bool
  | _, .plainElement _ => true
  | _, _ => false

/-- The sets of a list to group by: the grouping functions in order, and the set of the plain
columns, if there is one, in the place of the first plain column. -/
def gatherSets (elements : List (Bool × NodeId)) (plainSet : Option NodeId) : List NodeId :=
  let functions := (elements.filter (!·.1)).map Prod.snd
  let place := (elements.takeWhile (!·.1)).length
  functions.take place ++ (plainSet.toList ++ functions.drop place)

/-- All children of a list. -/
def slots (ids : List NodeId) : List Slot :=
  ids.map some

open Layout in
mutual

/-- The nodes of a phrase; the result names the last of them, which is the whole phrase. -/
def Phrase.layout : {form : Form} → Phrase form → Layout NodeId
  | _, .literal value => emit (.column (.literal value))
  | _, .null => emit (.column .null)
  | _, .star table => emit (.column (.star table))
  | _, .variable name => emit (.column (.variable name))
  | _, .reference table name => emit (.column (.primitive table name))
  | _, .function name arguments => do
      let arguments ← arguments.layout
      emit (.column (.function name.parts (slots arguments)))
  | _, .aggregation function distinct first others => do
      let first ← first.layout
      let others ← others.layout
      emit (.column (.aggregation function distinct (slots (first :: others))))
  | _, .cast lenient value type => do
      let value ← value.layout
      emit (.column (.cast (some value) type.text lenient))
  | _, .convert lenient type value style => do
      let value ← value.layout
      let style ← style.layout
      emit (.column (.convert type.text (some value) style lenient))
  | _, .parse lenient value type culture => do
      let value ← value.layout
      let culture ← culture.layout
      emit (.column (.parse (some value) type.text culture lenient))
  | _, .iif condition value otherwise => do
      let condition ← condition.layout
      let value ← value.layout
      let otherwise ← otherwise.layout
      emit (.column (.iif (some condition) (some value) (some otherwise)))
  | _, .searchedCase first others otherwise => do
      let first ← first.layout
      let others ← others.layout
      let otherwise ← otherwise.layout
      emit (.column (.case none (slots (first :: others)) otherwise))
  | _, .simpleCase operand first others otherwise => do
      let operand ← operand.layout
      let first ← first.layout
      let others ← others.layout
      let otherwise ← otherwise.layout
      emit (.column (.case (some operand) (slots (first :: others)) otherwise))
  | _, .bracketedColumn inner => do
      let inner ← inner.layout
      emit (.column (.bracket (some inner)))
  | _, .subselect statement => do
      let statement ← statement.layout
      emit (.column (.subselect (some statement)))
  | _, .negated operand => do
      let operand ← operand.layout
      emit (.column (.negated (some operand)))
  | _, .column left operations window => do
      let left ← left.layout
      let operations ← operations.layout
      let run ←
        if operations.isEmpty then pure left
        else emit (.column (.arithmetic (some left) (slots operations)))
      let window ← window.layout
      if window.isNone then pure run
      else emit (.column (.windowed (some run) window))
  | _, .operation operator operand => do
      let operand ← operand.layout
      emit (.element (.arithmeticOperation operator (some operand)))
  | _, .searchedBranch condition result => do
      let condition ← condition.layout
      let result ← result.layout
      emit (.element (.caseBranch (some condition) none (some result)))
  | _, .simpleBranch value result => do
      let value ← value.layout
      let result ← result.layout
      emit (.element (.caseBranch none (some value) (some result)))
  | _, .window partitionBy orderBy frame => do
      let partitionBy ← partitionBy.layout
      let orderBy ← orderBy.layout
      emit (.element (.window (slots partitionBy) (slots orderBy) (frame.map Frame.unit)
        (frame.bind Frame.lower) (frame.bind Frame.upper)))
  | _, .orderItem column collation direction => do
      let column ← column.layout
      emit (.element (.orderItem (some column) collation direction))
  | _, .condition left links => do
      let left ← left.layout
      let links ← links.layout
      if links.isEmpty then pure left
      else emit (.condition (.chain (some left) (slots links)))
  | _, .link operator term => do
      let term ← term.layout
      emit (.element (.conditionLink operator (some term)))
  | _, .comparison left operator right => do
      let left ← left.layout
      let right ← right.layout
      emit (.condition (.comparison (some left) operator.toComparison (some right)))
  | _, .like left negated right => do
      let left ← left.layout
      let right ← right.layout
      emit (.condition (.comparison (some left) (if negated then .notLike else .like)
        (some right)))
  | _, .setComparison left operator quantifier statement => do
      let left ← left.layout
      let statement ← statement.layout
      let right ← emit (.column (.subselect (some statement)))
      emit (.condition (.setComparison (some left) operator.toComparison quantifier
        (some right)))
  | _, .inList column negated first others => do
      let column ← column.layout
      let first ← first.layout
      let others ← others.layout
      emit (.condition (.inList (some column) negated (slots (first :: others))))
  | _, .inSelect column negated statement => do
      let column ← column.layout
      let statement ← statement.layout
      emit (.condition (.inSelect (some column) negated (some statement)))
  | _, .between column negated lower upper => do
      let column ← column.layout
      let lower ← lower.layout
      let upper ← upper.layout
      emit (.condition (.between (some column) negated (some lower) (some upper)))
  | _, .isNull column negated => do
      let column ← column.layout
      emit (.condition (.isNull (some column) negated))
  | _, .exists statement => do
      let statement ← statement.layout
      emit (.condition (.exists (some statement)))
  | _, .not term => do
      let term ← term.layout
      emit (.condition (.not (some term)))
  | _, .bracketedCondition inner => do
      let inner ← inner.layout
      emit (.condition (.bracket (some inner)))
  | _, .relation left joins => do
      let left ← left.layout
      let joins ← joins.layout
      if joins.isEmpty then pure left
      else emit (.relation (.joinChain (some left) (slots joins)))
  | _, .joinOn type _ source condition => do
      let source ← source.layout
      let condition ← condition.layout
      emit (.element (.join type (some source) (some condition)))
  | _, .joinFree type _ source => do
      let source ← source.layout
      emit (.element (.join type (some source) none))
  | _, .table name called => emit (.relation (.table name.parts called))
  | _, .bracketedRelation inner => do
      let inner ← inner.layout
      emit (.relation (.bracket (some inner)))
  | _, .derived statement called => do
      let statement ← statement.layout
      emit (.relation (.subselect (some statement) called))
  | _, .selectColumn column called => do
      let column ← column.layout
      match called with
      | none => pure column
      | some called => emit (.column (.renamed (some column) called))
  | _, .top count percent withTies => do
      let count ← count.layout
      emit (.element (.top (some count) percent withTies))
  | _, .pivot aggregation pivotColumn first others called => do
      let aggregation ← aggregation.layout
      let pivotColumn ← pivotColumn.layout
      let first ← first.layout
      let others ← others.layout
      emit (.element (.pivot (some aggregation) (some pivotColumn)
        (slots (first :: others)) called))
  | _, .groupingSets first others => do
      let first ← first.layout
      let others ← others.layout
      emit (.element (.groupBy true (slots (first :: others))))
  | _, .groupList first others => do
      let firstId ← first.layout
      let otherIds ← others.layout
      let marks := (first :: others.toList).map Phrase.isPlainElement
      let elements := marks.zip (firstId :: otherIds)
      let plain := (elements.filter (·.1)).map Prod.snd
      let plainSet ←
        if plain.isEmpty then pure none
        else some <$> emit (.element (.groupingSet .columns (slots plain)))
      emit (.element (.groupBy false (slots (gatherSets elements plainSet))))
  | _, .columnSet columns => do
      let columns ← columns.layout
      emit (.element (.groupingSet .columns (slots columns)))
  | _, .functionSet function first others => do
      let first ← first.layout
      let others ← others.layout
      emit (.element (.groupingSet function.kind (slots (first :: others))))
  | _, .functionGroup set => set.layout
  | _, .plainElement column => column.layout
  | _, .functionElement set => set.layout
  | _, .orderBy first others offset fetch => do
      let first ← first.layout
      let others ← others.layout
      let offset ← offset.layout
      let fetch ← fetch.layout
      emit (.element (.orderBy (slots (first :: others)) offset fetch))
  | _, .optionHints first others =>
      emit (.element (.optionHints ((first :: others).map Verbatim.text)))
  | _, .block connective top distinct first others sources pivot filter groupBy having => do
      let top ← top.layout
      let first ← first.layout
      let others ← others.layout
      let sources ← sources.layout
      let pivot ← pivot.layout
      let filter ← filter.layout
      let groupBy ← groupBy.layout
      let having ← having.layout
      emit (.select connective.operator? top distinct (slots (first :: others))
        (slots sources) pivot filter groupBy having)
  | _, .cte name columns statement => do
      let statement ← statement.layout
      emit (.element (.cte name columns (some statement)))
  | _, .statement ctes first others orderBy options => do
      let ctes ← ctes.layout
      let first ← first.layout
      let others ← others.layout
      let orderBy ← orderBy.layout
      let options ← options.layout
      emit (.statement (slots ctes) (slots (first :: others)) orderBy options)

/-- The nodes of a phrase that may be missing. -/
def Perhaps.layout : {form : Form} → Perhaps form → Layout Slot
  | _, .absent => pure none
  | _, .present phrase => do
      let id ← phrase.layout
      pure (some id)

/-- The nodes of the phrases of a list, one phrase after the other. -/
def Phrases.layout : {form : Form} → Phrases form → Layout (List NodeId)
  | _, .nil => pure []
  | _, .cons first others => do
      let first ← first.layout
      let others ← others.layout
      pure (first :: others)

end

/-- Adds nodes one after the other. -/
def Tree.attachAll (tree : Tree) (nodes : List Node) : Tree :=
  nodes.foldl Tree.attach tree

/-- Adds the nodes of a layout to a tree. -/
def Tree.plant {α : Type} (tree : Tree) (layout : Layout α) : α × Tree :=
  let (value, nodes) := layout.run tree.size
  (value, tree.attachAll nodes)

end SelectTree
