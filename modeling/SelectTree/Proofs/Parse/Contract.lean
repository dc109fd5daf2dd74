/-
Module: SelectTree.Proofs.Parse.Contract
Purpose: every node of a parsed tree keeps the contract of its clause, so that whoever reads the
  tree need not check what the grammar has checked.
Main exports: Node.required, Node.selectColumns, Node.Contract, clauses_kept
-/
import SelectTree.Proofs.Parse.Shape

namespace SelectTree

namespace Node

/-- The children that a node must have, of those that do not stand in lists. -/
def required : Node → List Slot
  | .root child => [child]
  | .column (.cast value _ _) => [value]
  | .column (.convert _ value _ _) => [value]
  | .column (.parse value _ _ _) => [value]
  | .column (.iif conditionSlot thenValue elseValue) => [conditionSlot, thenValue, elseValue]
  | .column (.bracket inner) => [inner]
  | .column (.subselect selectSlot) => [selectSlot]
  | .column (.arithmetic left _) => [left]
  | .column (.negated operand) => [operand]
  | .column (.windowed columnSlot window) => [columnSlot, window]
  | .column (.renamed columnSlot _) => [columnSlot]
  | .condition (.comparison left _ right) => [left, right]
  | .condition (.setComparison left _ _ right) => [left, right]
  | .condition (.inList columnSlot _ _) => [columnSlot]
  | .condition (.inSelect columnSlot _ selectSlot) => [columnSlot, selectSlot]
  | .condition (.between columnSlot _ lower upper) => [columnSlot, lower, upper]
  | .condition (.isNull columnSlot _) => [columnSlot]
  | .condition (.exists selectSlot) => [selectSlot]
  | .condition (.not conditionSlot) => [conditionSlot]
  | .condition (.bracket inner) => [inner]
  | .condition (.chain left _) => [left]
  | .relation (.bracket inner) => [inner]
  | .relation (.subselect selectSlot _) => [selectSlot]
  | .relation (.joinChain left _) => [left]
  | .element (.cte _ _ selectSlot) => [selectSlot]
  | .element (.top count _ _) => [count]
  | .element (.pivot aggregation pivotColumn _ _) => [aggregation, pivotColumn]
  | .element (.orderItem columnSlot _ _) => [columnSlot]
  | .element (.join _ relationSlot _) => [relationSlot]
  | .element (.arithmeticOperation _ operand) => [operand]
  | .element (.conditionLink _ conditionSlot) => [conditionSlot]
  | .element (.caseBranch _ _ result) => [result]
  | _ => []

/-- The columns of a select list. -/
def selectColumns : Node → List Slot
  | .select _ _ _ columns _ _ _ _ _ => columns
  | _ => []

/-- What a node may be relied on for. -/
structure Contract (look : LookUp) (node : Node) : Prop where
  /-- No list has a hole. -/
  no_hole : ∀ slots, .children slots ∈ node.values → none ∉ slots
  /-- No child that must be there is missing. -/
  required : none ∉ node.required
  clause : node.Clause look
  /-- A column with an alias is what was parsed or stands in a select list. -/
  aliases : ∀ child columnSlot called, child ∈ node.childIds →
    look child = some (.column (.renamed columnSlot called)) →
    node.kind = .root ∨ some child ∈ node.selectColumns

/-! ### All children are expected -/

variable {node : Node} {slot : Slot} {child : NodeId}

attribute [local simp] mem_each mem_perhaps values expects exists_or

/-- Every slot of a list is expected to hold something of one form. -/
theorem exists_mem_expects_of_children {slots : List Slot} (member : slot ∈ slots)
    (listed : FieldValue.children slots ∈ node.values) : ∃ form, (slot, form) ∈ node.expects := by
  cases node with
  | root child => simp at listed
  | column column => cases column <;> simp_all
  | condition condition => cases condition <;> simp_all
  | relation relation => cases relation <;> simp_all
  | statement ctes selects orderBy options =>
      have isChild : slots = ctes ∨ slots = selects := by simpa using listed
      rcases isChild with rfl | rfl
      · exact ⟨.cte, by simp [member]⟩
      · rw [← List.take_append_drop 1 slots, List.mem_append] at member
        rcases member with first | other
        · exact ⟨.block false, by simp [first]⟩
        · exact ⟨.block true, by simp_all⟩
  | select setOperator top distinct columns sources pivot filter groupBy having =>
      have isChild : slots = columns ∨ slots = sources := by simpa using listed
      rcases isChild with rfl | rfl <;> simp [member]
  | element element => cases element <;> simp at listed ⊢ <;> grind

theorem exists_mem_expects_of_child (notRoot : node.kind ≠ .root)
    (single : FieldValue.child (some child) ∈ node.values) :
    ∃ form, (some child, form) ∈ node.expects := by
  cases node with
  | root child => exact absurd rfl notRoot
  | column column => cases column <;> simp at single ⊢ <;> grind
  | condition condition => cases condition <;> simp at single ⊢ <;> grind
  | relation relation => cases relation <;> simp at single ⊢ <;> grind
  | element element => cases element <;> simp at single ⊢ <;> grind
  | statement ctes selects orderBy options =>
      simp at single ⊢
      grind
  | select setOperator top distinct columns sources pivot filter groupBy having =>
      simp at single ⊢
      grind

theorem exists_mem_expects_of_required (notRoot : node.kind ≠ .root)
    (demanded : slot ∈ node.required) : ∃ form, (slot, form) ∈ node.expects := by
  cases node with
  | root child => exact absurd rfl notRoot
  | column column => cases column <;> simp [required] at demanded ⊢ <;> grind
  | condition condition => cases condition <;> simp [required] at demanded ⊢ <;> grind
  | relation relation => cases relation <;> simp [required] at demanded ⊢ <;> grind
  | element element => cases element <;> simp [required] at demanded ⊢ <;> grind
  | _ => cases demanded

/-- Only a select list expects columns that may have an alias. -/
theorem mem_selectColumns (expected : (slot, Form.selectColumn) ∈ node.expects) :
    slot ∈ node.selectColumns := by
  cases node with
  | root child => cases expected
  | column column =>
      cases column with
      | case operand branches otherwise => cases operand <;> simp at expected
      | _ => simp at expected
  | condition condition => cases condition <;> simp at expected
  | relation relation => cases relation <;> simp at expected
  | element element => cases element <;> simp at expected
  | statement ctes selects orderBy options => simp at expected
  | select setOperator top distinct columns sources pivot filter groupBy having =>
      simpa [selectColumns] using expected

/-- Every child is expected to be of one form. -/
theorem exists_mem_expects_of_childIds (notRoot : node.kind ≠ .root)
    (held : child ∈ node.childIds) : ∃ form, (some child, form) ∈ node.expects := by
  obtain ⟨value, listed, isChild⟩ := List.mem_flatMap.1 held
  cases value with
  | child slot =>
      obtain rfl := Option.mem_toList.1 isChild
      exact exists_mem_expects_of_child notRoot listed
  | children slots =>
      obtain ⟨_, member, rfl⟩ := List.mem_filterMap.1 isChild
      exact exists_mem_expects_of_children member listed
  | _ => cases isChild

end Node

/-! ### Contracts -/

/-- A column with an alias stands for nothing but a column of a select list. -/
theorem Form.eq_selectColumn_of_admits {form : Form} {columnSlot : Slot} {called : Identifier}
    (admits : form.admits (.column (.renamed columnSlot called)) = true) :
    form = .selectColumn := by
  cases form <;> first | rfl | cases admits

/-- A node such as the grammar describes keeps the contract of its kind. -/
theorem Node.Regular.contract {look : LookUp} {node : Node} (regular : node.Regular look)
    (notRoot : node.kind ≠ .root) : node.Contract look where
  no_hole := by
    intro slots listed hole
    obtain ⟨form, expected⟩ := exists_mem_expects_of_children hole listed
    exact (regular.shows _ expected).ne_none rfl
  required := by
    intro missing
    obtain ⟨form, expected⟩ := exists_mem_expects_of_required notRoot missing
    exact (regular.shows _ expected).ne_none rfl
  clause := regular.clause
  aliases := by
    intro child columnSlot called held found
    obtain ⟨form, expected⟩ := exists_mem_expects_of_childIds notRoot held
    obtain ⟨_, node, ⟨⟩, foundAgain, admits⟩ := regular.shows _ expected
    rw [found] at foundAgain
    cases foundAgain
    obtain rfl := Form.eq_selectColumn_of_admits admits
    exact .inr (mem_selectColumns expected)

/-- A root with a child keeps its contract. -/
theorem Node.contract_root (look : LookUp) (child : NodeId) :
    (Node.root (some child)).Contract look where
  no_hole := by simp [values]
  required := by simp [required]
  clause := trivial
  aliases := fun _ _ _ _ _ => .inl rfl

/-- Only a phrase of a select list shows as a column with an alias. -/
theorem Phrase.form_eq_of_shown {form : Form} {phrase : Phrase form} {look : LookUp}
    {id : NodeId} {columnSlot : Slot} {called : Identifier} (shown : phrase.Shown look id)
    (found : look id = some (.column (.renamed columnSlot called))) : form = .selectColumn := by
  have only {other : Form} (shown : Shows look other (some id)) : other = .selectColumn := by
    obtain ⟨_, node, ⟨⟩, foundAgain, admits⟩ := shown
    rw [found] at foundAgain
    cases foundAgain
    exact Form.eq_selectColumn_of_admits admits
  cases form with
  | groupElement =>
      dsimp only [Phrase.Shown] at shown
      split at shown <;> cases only shown
  | _ => exact only shown

/-- Every node of the tree of a phrase keeps the contract of its kind. -/
theorem Phrase.contract {form : Form} (phrase : Phrase form) {id : NodeId} {node : Node}
    (found : phrase.tree.node? id = some node) : node.Contract phrase.tree.node? := by
  by_cases isRoot : id = .root
  · rw [phrase.node?_tree, if_pos isRoot] at found
    cases found
    exact Node.contract_root _ _
  · apply (phrase.regular found).contract
    intro kind
    exact isRoot (phrase.proper_tree.only_root id node found (by rw [Node.nodeClass, kind]; rfl))

/-- Every node of a parsed tree keeps the contract of its clause.  What is parsed has an alias
itself only where a column with its alias is asked for. -/
theorem clauses_kept {entry : EntryPoint} {source : String} {options : Options} {tree : Tree}
    (parsed : parse entry source options {} = .ok tree) :
    (∀ id node, tree.node? id = some node → node.Contract tree.node?) ∧
      ∀ child columnSlot called, tree.node? .root = some (.root (some child)) →
        tree.node? child = some (.column (.renamed columnSlot called)) → entry = .column := by
  obtain ⟨phrase, rfl⟩ := exists_phrase_of_parse parsed
  refine ⟨fun id node => phrase.contract, fun child columnSlot called holds found => ?_⟩
  rw [phrase.node?_tree, if_pos rfl] at holds
  cases holds
  have form := Phrase.form_eq_of_shown phrase.shown_tree found
  cases entry <;> first | rfl | cases form

/-- The tree of `SELECT a b FROM t GROUP BY ROLLUP (c), a`.  The plain column to group by becomes a
set behind the grouping function. -/
def groupedSelect : Tree :=
  { entries := #[
      { node := .root (some ⟨10⟩), parent := none },
      { node := .column (.primitive none (.plain "a")), parent := some ⟨2⟩ },
      { node := .column (.renamed (some ⟨1⟩) (.plain "b")), parent := some ⟨9⟩ },
      { node := .relation (.table [.plain "t"] none), parent := some ⟨9⟩ },
      { node := .column (.primitive none (.plain "c")), parent := some ⟨5⟩ },
      { node := .element (.groupingSet .rollup [some ⟨4⟩]), parent := some ⟨8⟩ },
      { node := .column (.primitive none (.plain "a")), parent := some ⟨7⟩ },
      { node := .element (.groupingSet .columns [some ⟨6⟩]), parent := some ⟨8⟩ },
      { node := .element (.groupBy false [some ⟨5⟩, some ⟨7⟩]), parent := some ⟨9⟩ },
      { node := .select none none false [some ⟨2⟩] [some ⟨3⟩] none none (some ⟨8⟩) none,
        parent := some ⟨10⟩ },
      { node := .statement [] [some ⟨9⟩] none none, parent := some ⟨0⟩ }] }

theorem parse_groupedSelect :
    parse .statement "SELECT a b FROM t GROUP BY ROLLUP (c), a" {} {} = .ok groupedSelect := by
  decide +kernel

/-- The tree of `a b`. -/
def aliasedColumn : Tree :=
  { entries := #[
      { node := .root (some ⟨2⟩), parent := none },
      { node := .column (.primitive none (.plain "a")), parent := some ⟨2⟩ },
      { node := .column (.renamed (some ⟨1⟩) (.plain "b")), parent := some ⟨0⟩ }] }

theorem parse_aliasedColumn : parse .column "a b" {} {} = .ok aliasedColumn := by
  decide +kernel

theorem clauses_kept_groupedSelect :
    (parse .statement "SELECT a b FROM t GROUP BY ROLLUP (c), a" {} {} = .ok groupedSelect ∧
      ∀ id node, groupedSelect.node? id = some node → node.Contract groupedSelect.node?) ∧
    (parse .column "a b" {} {} = .ok aliasedColumn ∧
      aliasedColumn.node? .root = some (.root (some ⟨2⟩)) ∧
      aliasedColumn.node? ⟨2⟩ = some (.column (.renamed (some ⟨1⟩) (.plain "b"))) ∧
      EntryPoint.column = .column) :=
  ⟨⟨parse_groupedSelect, (clauses_kept parse_groupedSelect).1⟩,
    parse_aliasedColumn, rfl, rfl, (clauses_kept parse_aliasedColumn).2 _ _ _ rfl rfl⟩

end SelectTree
