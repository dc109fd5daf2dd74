/-
Module: SelectTree.Proofs.Node.Shape
Purpose: which nodes the grammar describes: what each child of a node stands for, and what holds
  of a node as a whole.
Main exports: Form.admits, Node.expects, LookUp, Holds, Shows, Ascending, Node.Clause, Node.Chained,
  Node.Regular

A node names its children by number, so what it is depends on the tree.  The tree is a function
from numbers to nodes here, which says nothing of how the tree came about.
-/
import SelectTree.Proofs.Layout.Phrase

namespace SelectTree

/-- What is asked of the node of a phrase beyond its class. -/
def Form.narrows : Form → Node → Bool
  | .operand, node => !([.arithmeticColumn, .overColumn, .aliasColumn].contains node.kind)
  | .column, node => node.kind != .aliasColumn
  | .searchedBranch, .element (.caseBranch conditionSlot value _) =>
      conditionSlot.isSome && value.isNone
  | .simpleBranch, .element (.caseBranch conditionSlot value _) =>
      conditionSlot.isNone && value.isSome
  | .term, node => node.kind != .chainCondition
  | .source, node => node.kind != .joinChainRelation
  | .functionSet, .element (.groupingSet kind _) => kind != .columns
  | .block chained, .select setOperator _ _ _ _ _ _ _ _ => setOperator.isSome == chained
  | _, _ => true

/-- A node may stand for a phrase of a form. -/
def Form.admits (form : Form) (node : Node) : Bool :=
  node.nodeClass == form.nodeClass && form.narrows node

/-- Children that all stand for phrases of one form. -/
def each (form : Form) (slots : List Slot) : List (Slot × Form) :=
  slots.map fun slot => (slot, form)

/-- A child that may be missing. -/
def perhaps (form : Form) (slot : Slot) : List (Slot × Form) :=
  each form (slot.toList.map some)

/-- The children that a node must have, or has, with the forms that they stand for.  The child of
a root is whatever was parsed and is left out. -/
def Node.expects : Node → List (Slot × Form)
  | .root _ => []
  | .column (.function _ arguments) => each .column arguments
  | .column (.aggregation _ _ arguments) => each .column arguments
  | .column (.cast value _ _) => [(value, .column)]
  | .column (.convert _ value style _) => (value, .column) :: perhaps .column style
  | .column (.parse value _ culture _) => (value, .column) :: perhaps .column culture
  | .column (.iif conditionSlot thenValue elseValue) =>
      [(conditionSlot, .condition), (thenValue, .column), (elseValue, .column)]
  | .column (.case operand branches otherwise) =>
      perhaps .column operand ++
        each (if operand.isSome then .simpleBranch else .searchedBranch) branches ++
        perhaps .column otherwise
  | .column (.bracket inner) => [(inner, .column)]
  | .column (.subselect selectSlot) => [(selectSlot, .statement)]
  | .column (.arithmetic left operations) => (left, .operand) :: each .operation operations
  | .column (.negated operand) => [(operand, .operand)]
  | .column (.windowed columnSlot window) => [(columnSlot, .column), (window, .window)]
  | .column (.renamed columnSlot _) => [(columnSlot, .column)]
  | .column _ => []
  | .condition (.comparison left _ right) => [(left, .column), (right, .column)]
  | .condition (.setComparison left _ _ right) => [(left, .column), (right, .operand)]
  | .condition (.inList columnSlot _ values) => (columnSlot, .column) :: each .column values
  | .condition (.inSelect columnSlot _ selectSlot) =>
      [(columnSlot, .column), (selectSlot, .statement)]
  | .condition (.between columnSlot _ lower upper) =>
      [(columnSlot, .column), (lower, .column), (upper, .column)]
  | .condition (.isNull columnSlot _) => [(columnSlot, .column)]
  | .condition (.exists selectSlot) => [(selectSlot, .statement)]
  | .condition (.not conditionSlot) => [(conditionSlot, .term)]
  | .condition (.bracket inner) => [(inner, .condition)]
  | .condition (.chain left links) => (left, .term) :: each .link links
  | .relation (.table _ _) => []
  | .relation (.bracket inner) => [(inner, .relation)]
  | .relation (.subselect selectSlot _) => [(selectSlot, .statement)]
  | .relation (.joinChain left joins) => (left, .source) :: each .join joins
  | .statement ctes selects orderBy options =>
      each .cte ctes ++ each (.block false) (selects.take 1) ++
        each (.block true) (selects.drop 1) ++ perhaps .orderBy orderBy ++
        perhaps .optionHints options
  | .select _ top _ columns sources pivot filter groupBy having =>
      perhaps .top top ++ each .selectColumn columns ++ each .relation sources ++
        perhaps .pivot pivot ++ perhaps .condition filter ++ perhaps .groupBy groupBy ++
        perhaps .condition having
  | .element (.cte _ _ selectSlot) => [(selectSlot, .statement)]
  | .element (.top count _ _) => [(count, .operand)]
  | .element (.pivot aggregation pivotColumn values _) =>
      (aggregation, .column) :: (pivotColumn, .column) :: each .column values
  | .element (.groupBy _ sets) => each .groupingSet sets
  | .element (.groupingSet _ columns) => each .column columns
  | .element (.orderBy items offset fetch) =>
      each .orderItem items ++ perhaps .column offset ++ perhaps .column fetch
  | .element (.orderItem columnSlot _ _) => [(columnSlot, .column)]
  | .element (.window partitionBy orderBy _ _ _) =>
      each .column partitionBy ++ each .orderItem orderBy
  | .element (.optionHints _) => []
  | .element (.join _ relationSlot conditionSlot) =>
      (relationSlot, .source) :: perhaps .condition conditionSlot
  | .element (.arithmeticOperation _ operand) => [(operand, .operand)]
  | .element (.conditionLink _ conditionSlot) => [(conditionSlot, .term)]
  | .element (.caseBranch conditionSlot value result) =>
      perhaps .condition conditionSlot ++ perhaps .column value ++ [(result, .column)]

/-! ### Nodes in a tree -/

/-- Which nodes the numbers stand for. -/
abbrev LookUp := NodeId → Option Node

/-- A child is there, and it is such a node. -/
def Holds (look : LookUp) (slot : Slot) (such : Node → Prop) : Prop :=
  ∃ id node, slot = some id ∧ look id = some node ∧ such node

/-- A child is there and may stand for a phrase of the form. -/
def Shows (look : LookUp) (form : Form) (slot : Slot) : Prop :=
  Holds look slot fun node => form.admits node = true

/-- All children of a list are there and may stand for their forms. -/
def ShowsAll (look : LookUp) (children : List (Slot × Form)) : Prop :=
  ∀ child ∈ children, Shows look child.2 child.1

/-- All children are there, and each is younger than the one before it. -/
def Ascending (slots : List Slot) : Prop :=
  ∃ ids : List NodeId, slots = ids.map some ∧ ids.Pairwise fun older younger =>
    older.index < younger.index

/-- The columns of each set of plain columns among some sets. -/
def columnSets (look : LookUp) (sets : List Slot) : List (List Slot) :=
  sets.filterMap fun slot =>
    match slot.bind look with
    | some (.element (.groupingSet .columns columns)) => some columns
    | _ => none

/-- A select block, either behind a set operator or without one. -/
def Node.IsBlock (chained : Bool) : Node → Prop
  | .select setOperator _ _ _ _ _ _ _ _ => setOperator.isSome = chained
  | _ => False

/-- A branch of a case with an operand, which has a value, or without one, which has a
condition. -/
def Node.IsBranch (hasOperand : Bool) : Node → Prop
  | .element (.caseBranch conditionSlot value _) =>
      value.isSome = hasOperand ∧ conditionSlot.isNone = hasOperand
  | _ => False

/-- What the clause that a node stands for asks of it, beyond the children that it must have. -/
def Node.Clause (look : LookUp) : Node → Prop
  | .column (.function name _) => 1 ≤ name.length ∧ name.length ≤ 2
  | .column (.aggregation _ _ arguments) => arguments ≠ []
  | .column (.cast _ typeName _) => typeName ≠ ""
  | .column (.convert typeName _ _ _) => typeName ≠ ""
  | .column (.parse _ typeName _ _) => typeName ≠ ""
  | .column (.case operand branches _) =>
      branches ≠ [] ∧ ∀ branch ∈ branches, Holds look branch (Node.IsBranch operand.isSome)
  | .condition (.setComparison _ operator _ right) =>
      operator ≠ .like ∧ operator ≠ .notLike ∧
        Holds look right fun node => node.kind = .subselectColumn
  | .condition (.inList _ _ values) => values ≠ []
  | .relation (.table name _) => 1 ≤ name.length ∧ name.length ≤ 3
  | .statement _ selects _ _ =>
      ∃ first others, selects = first :: others ∧ Holds look first (Node.IsBlock false) ∧
        ∀ other ∈ others, Holds look other (Node.IsBlock true)
  | .select _ _ _ columns _ _ _ _ _ => columns ≠ []
  | .element (.pivot _ _ values _) => values ≠ []
  | .element (.groupBy groupingSets sets) =>
      sets ≠ [] ∧ (groupingSets = false →
        (columnSets look sets).length ≤ 1 ∧ [] ∉ columnSets look sets)
  | .element (.groupingSet kind columns) => kind ≠ .columns → columns ≠ []
  | .element (.orderBy items _ _) => items ≠ []
  | .element (.optionHints hints) => hints ≠ [] ∧ "" ∉ hints
  | .element (.join joinType _ conditionSlot) => conditionSlot.isSome = joinType.requiresOn
  | _ => True

/-- What is asked of chains as a whole, and of the column that a window is put on. -/
def Node.Chained (look : LookUp) : Node → Prop
  | .column (.arithmetic left operations) => operations ≠ [] ∧ Ascending (left :: operations)
  | .column (.windowed columnSlot _) => Holds look columnSlot fun node => node.kind ≠ .overColumn
  | .condition (.chain left links) => links ≠ [] ∧ Ascending (left :: links)
  | .relation (.joinChain left joins) => joins ≠ [] ∧ Ascending (left :: joins)
  | _ => True

/-- A node that the grammar describes. -/
structure Node.Regular (look : LookUp) (node : Node) : Prop where
  shows : ShowsAll look node.expects
  clause : node.Clause look
  chained : node.Chained look

namespace Holds

variable {look : LookUp} {slot : Slot} {such other : Node → Prop}

/-- A node that is looked up under a number. -/
theorem of_look {id : NodeId} {node : Node} (found : look id = some node) (isSuch : such node) :
    Holds look (some id) such :=
  ⟨id, node, rfl, found, isSuch⟩

theorem imp (holds : Holds look slot such) (weaken : ∀ node, such node → other node) :
    Holds look slot other := by
  obtain ⟨id, node, there, found, isSuch⟩ := holds
  exact ⟨id, node, there, found, weaken node isSuch⟩

/-- Such a child is not missing. -/
theorem ne_none (holds : Holds look slot such) : slot ≠ none := by
  obtain ⟨id, node, rfl, -⟩ := holds
  exact Option.some_ne_none id

end Holds

@[simp] theorem each_nil (form : Form) : each form [] = [] := rfl

@[simp] theorem each_cons (form : Form) (slot : Slot) (slots : List Slot) :
    each form (slot :: slots) = (slot, form) :: each form slots := rfl

/-- The children of a list all stand for its form. -/
theorem mem_each {form other : Form} {slot : Slot} {slots : List Slot} :
    (slot, other) ∈ each form slots ↔ slot ∈ slots ∧ other = form := by
  simp [each, eq_comm]

/-- A child that is missing is not expected. -/
theorem mem_perhaps {form other : Form} {slot vacancy : Slot} :
    (slot, other) ∈ perhaps form vacancy ↔ (slot = vacancy ∧ slot ≠ none) ∧ other = form := by
  rw [perhaps, mem_each]
  cases vacancy <;> cases slot <;> simp

namespace ShowsAll

variable {look : LookUp} {form : Form}

@[simp] theorem nil : ShowsAll look [] :=
  fun _ member => absurd member List.not_mem_nil

@[simp] theorem cons_iff {slot : Slot} {children : List (Slot × Form)} :
    ShowsAll look ((slot, form) :: children) ↔ Shows look form slot ∧ ShowsAll look children :=
  List.forall_mem_cons

@[simp] theorem append_iff {first second : List (Slot × Form)} :
    ShowsAll look (first ++ second) ↔ ShowsAll look first ∧ ShowsAll look second :=
  List.forall_mem_append

/-- A list of children of one form. -/
theorem each_iff {children : List Slot} :
    ShowsAll look (each form children) ↔ ∀ slot ∈ children, Shows look form slot :=
  List.forall_mem_map

/-- The same for children that are all there. -/
@[simp] theorem slots_iff {ids : List NodeId} :
    ShowsAll look (each form (slots ids)) ↔ ∀ id ∈ ids, Shows look form (some id) :=
  each_iff.trans List.forall_mem_map

/-- A child that may be missing stands for its form if it is there. -/
@[simp] theorem perhaps_iff {slot : Slot} :
    ShowsAll look (perhaps form slot) ↔ ∀ id, slot = some id → Shows look form (some id) := by
  cases slot <;> simp [perhaps]

end ShowsAll

/-! ### What the form of a node says of it -/

namespace Node

/-- All columns have one class, whatever they are. -/
@[simp] theorem nodeClass_column (column : ColumnNode) :
    (Node.column column).nodeClass = .column := by
  cases column <;> rfl

@[simp] theorem nodeClass_condition (condition : ConditionNode) :
    (Node.condition condition).nodeClass = .condition := by
  cases condition <;> rfl

@[simp] theorem nodeClass_relation (relation : RelationNode) :
    (Node.relation relation).nodeClass = .relation := by
  cases relation <;> rfl

/-- A node whose class is none of the others is a part of another node. -/
theorem exists_element {node : Node} {nodeClass : NodeClass} (isClass : node.nodeClass = nodeClass)
    (others : nodeClass ∉
      [NodeClass.root, .column, .condition, .relation, .statement, .select]) :
    ∃ element, node = .element element := by
  subst isClass
  cases node with
  | element element => exact ⟨element, rfl⟩
  | root child => exact absurd (List.mem_cons_self ..) others
  | statement ctes selects orderBy options => simp [nodeClass, kind, Kind.nodeClass] at others
  | select => simp [nodeClass, kind, Kind.nodeClass] at others
  | _ => simp at others

end Node

namespace Form

variable {node : Node}

/-- The class of the form, and what the form asks beyond it. -/
theorem admits_iff {form : Form} :
    form.admits node = true ↔ node.nodeClass = form.nodeClass ∧ form.narrows node = true := by
  simp [admits]

/-- An operand is no run of operands and no column with a window or an alias. -/
theorem kind_of_admits_operand (admits : operand.admits node = true) :
    node.kind ∉ [Kind.arithmeticColumn, .overColumn, .aliasColumn] := by
  simpa [narrows] using (admits_iff.1 admits).2

/-- A column inside of others has no alias. -/
theorem kind_of_admits_column (admits : column.admits node = true) :
    node.kind ≠ .aliasColumn := by
  simpa [narrows] using (admits_iff.1 admits).2

/-- A term is no chain of terms. -/
theorem kind_of_admits_term (admits : term.admits node = true) : node.kind ≠ .chainCondition := by
  simpa [narrows] using (admits_iff.1 admits).2

/-- A source is no chain of joins. -/
theorem kind_of_admits_source (admits : source.admits node = true) :
    node.kind ≠ .joinChainRelation := by
  simpa [narrows] using (admits_iff.1 admits).2

/-! The nodes of some forms are of one kind. -/

/-- An operation is an operator with its operand. -/
theorem exists_of_admits_operation (admits : operation.admits node = true) :
    ∃ operator operand, node = .element (.arithmeticOperation operator operand) := by
  have isClass := (admits_iff.1 admits).1
  obtain ⟨element, rfl⟩ := Node.exists_element isClass (by decide)
  cases element <;> first | exact ⟨_, _, rfl⟩ | cases isClass

/-- A link is an operator with its term. -/
theorem exists_of_admits_link (admits : link.admits node = true) :
    ∃ operator term, node = .element (.conditionLink operator term) := by
  have isClass := (admits_iff.1 admits).1
  obtain ⟨element, rfl⟩ := Node.exists_element isClass (by decide)
  cases element <;> first | exact ⟨_, _, rfl⟩ | cases isClass

/-- A join is its sort with a source, and perhaps a condition. -/
theorem exists_of_admits_join (admits : join.admits node = true) :
    ∃ type source condition, node = .element (.join type source condition) := by
  have isClass := (admits_iff.1 admits).1
  obtain ⟨element, rfl⟩ := Node.exists_element isClass (by decide)
  cases element <;> first | exact ⟨_, _, _, rfl⟩ | cases isClass

/-- A searched branch has a condition and no value. -/
theorem isBranch_of_admits_searchedBranch (admits : searchedBranch.admits node = true) :
    node.IsBranch false := by
  obtain ⟨isClass, narrows⟩ := admits_iff.1 admits
  obtain ⟨element, rfl⟩ := Node.exists_element isClass (by decide)
  cases element with
  | caseBranch condition value result =>
      simpa [Form.narrows, Node.IsBranch, and_comm] using narrows
  | _ => cases isClass

/-- A simple branch has a value and no condition. -/
theorem isBranch_of_admits_simpleBranch (admits : simpleBranch.admits node = true) :
    node.IsBranch true := by
  obtain ⟨isClass, narrows⟩ := admits_iff.1 admits
  obtain ⟨element, rfl⟩ := Node.exists_element isClass (by decide)
  cases element with
  | caseBranch condition value result =>
      simpa [Form.narrows, Node.IsBranch, and_comm] using narrows
  | _ => cases isClass

/-- The set of a grouping function is no set of plain columns. -/
theorem exists_of_admits_functionSet (admits : functionSet.admits node = true) :
    ∃ kind columns, node = .element (.groupingSet kind columns) ∧ kind ≠ .columns := by
  obtain ⟨isClass, narrows⟩ := admits_iff.1 admits
  obtain ⟨element, rfl⟩ := Node.exists_element isClass (by decide)
  cases element with
  | groupingSet kind columns => exact ⟨kind, columns, rfl, by simpa [Form.narrows] using narrows⟩
  | _ => cases isClass

/-- A block has a set operator exactly if it is chained. -/
theorem isBlock_of_admits_block {chained : Bool} (admits : (block chained).admits node = true) :
    node.IsBlock chained := by
  obtain ⟨isClass, narrows⟩ := admits_iff.1 admits
  cases node with
  | select => simpa [Form.narrows, Node.IsBlock] using narrows
  | column column => cases column <;> cases isClass
  | condition condition => cases condition <;> cases isClass
  | relation relation => cases relation <;> cases isClass
  | element element => cases element <;> cases isClass
  | _ => cases isClass

/-! Some forms are among others. -/

/-- An operand is a column. -/
theorem admits_column_of_operand (admits : operand.admits node = true) :
    column.admits node = true := by
  have kind := kind_of_admits_operand admits
  rw [admits_iff]
  refine ⟨(admits_iff.1 admits).1, ?_⟩
  simp only [List.mem_cons, not_or] at kind
  simpa [narrows] using kind.2.2.1

/-- A column may stand among those of a block without an alias. -/
theorem admits_selectColumn_of_column (admits : column.admits node = true) :
    selectColumn.admits node = true :=
  admits_iff.2 ⟨(admits_iff.1 admits).1, rfl⟩

/-- A term alone is a condition. -/
theorem admits_condition_of_term (admits : term.admits node = true) :
    condition.admits node = true :=
  admits_iff.2 ⟨(admits_iff.1 admits).1, rfl⟩

/-- A source alone is a relation. -/
theorem admits_relation_of_source (admits : source.admits node = true) :
    relation.admits node = true :=
  admits_iff.2 ⟨(admits_iff.1 admits).1, rfl⟩

/-- The set of a grouping function is a set. -/
theorem admits_groupingSet_of_functionSet (admits : functionSet.admits node = true) :
    groupingSet.admits node = true :=
  admits_iff.2 ⟨(admits_iff.1 admits).1, rfl⟩

end Form

end SelectTree
