/-
Module: SelectTree.Proofs.Layout.Phrase
Purpose: the nodes of a phrase leave one stem, which is the phrase as a whole.
Main exports: Form.nodeClass, Phrase.nodeClass, Phrase.Stemmed, Phrase.yields

A part leaves its stem behind those that are there, and the node at the end adopts them all.  So
each longer phrase has a lemma of its own, which says this of its parts in their order.
-/
import SelectTree.Proofs.Layout.Sprout

namespace SelectTree

/-- The class of the last node of a phrase.  An element to group by is a column or a set; see
`Phrase.nodeClass`. -/
def Form.nodeClass : Form → NodeClass
  | .operand | .column | .selectColumn => .column
  | .operation => .arithmeticOperation
  | .searchedBranch | .simpleBranch => .caseBranch
  | .window => .window
  | .orderItem => .orderItem
  | .condition | .term => .condition
  | .link => .conditionLink
  | .relation | .source => .relation
  | .join => .join
  | .top => .top
  | .pivot => .pivot
  | .groupBy => .groupBy
  | .groupingSet | .functionSet | .groupElement => .groupingSet
  | .orderBy => .orderBy
  | .optionHints => .optionHints
  | .block _ => .select
  | .cte => .cte
  | .statement => .statement

/-- The class of the last node of a phrase. -/
def Phrase.nodeClass {form : Form} (phrase : Phrase form) : NodeClass :=
  if phrase.isPlainElement then .column else form.nodeClass

/-- All phrases of the form have the same class. -/
def Form.Uniform : Form → Prop
  | .groupElement => False
  | _ => True

/-- Of a uniform form, all phrases are of one class. -/
theorem Phrase.nodeClass_eq {form : Form} (phrase : Phrase form) (uniform : form.Uniform) :
    phrase.nodeClass = form.nodeClass := by
  cases phrase <;> first | rfl | exact uniform.elim

/-- Stems of one class. -/
def stemsOf (nodeClass : NodeClass) (ids : List NodeId) : List Stem :=
  ids.map fun id => (id, nodeClass)

@[simp] theorem stemsOf_nil (nodeClass : NodeClass) : stemsOf nodeClass [] = [] := rfl

@[simp] theorem stemsOf_cons (nodeClass : NodeClass) (id : NodeId) (ids : List NodeId) :
    stemsOf nodeClass (id :: ids) = (id, nodeClass) :: stemsOf nodeClass ids := rfl

/-- The stems of phrases, whose classes may differ. -/
def Phrases.stems {form : Form} (phrases : Phrases form) (ids : List NodeId) : List Stem :=
  ids.zip (phrases.toList.map Phrase.nodeClass)

/-- There are as many results as phrases. -/
theorem Phrases.length_layout : {form : Form} → (phrases : Phrases form) → (start : Nat) →
    (phrases.layout.run start).1.length = phrases.toList.length
  | _, .nil, _ => rfl
  | _, .cons first others, start => by
      simp [Phrases.layout, Phrases.toList, Phrases.length_layout others]

/-- Of a uniform form, the stems of a list are of one class. -/
theorem Phrases.stems_eq {form : Form} (phrases : Phrases form) (uniform : form.Uniform)
    {ids : List NodeId} (sameLength : ids.length = phrases.toList.length) :
    phrases.stems ids = stemsOf form.nodeClass ids := by
  have classes : phrases.toList.map Phrase.nodeClass =
      List.replicate ids.length form.nodeClass := by
    rw [sameLength, List.eq_replicate_iff]
    refine ⟨by simp, fun nodeClass member => ?_⟩
    obtain ⟨phrase, _, rfl⟩ := List.mem_map.1 member
    exact phrase.nodeClass_eq uniform
  have zipped : ∀ ids : List NodeId,
      ids.zip (List.replicate ids.length form.nodeClass) = stemsOf form.nodeClass ids := by
    intro ids
    induction ids with
    | nil => rfl
    | cons id ids ih => simp [List.replicate_succ, ih]
  rw [Phrases.stems, classes, zipped]

/-! ### The stems of phrases -/

@[simp] theorem filterMap_slots (ids : List NodeId) :
    (slots ids).filterMap (fun slot => slot) = ids := by
  simp [slots, List.filterMap_map]

/-- The demands of a node, field by field. -/
theorem Node.demands_eq (node : Node) :
    node.demands = (node.fields.zip node.values).flatMap fun (field, value) =>
      stemsOf (field.type.accepts?.getD .any) value.childIds := by
  simp [demands, placements, List.map_flatMap, stemsOf, Function.comp_def]

section Yields

open Layout

/-- A phrase leaves one stem, its last node. -/
def Phrase.Stemmed {form : Form} (phrase : Phrase form) : Prop :=
  Yields [] phrase.layout fun id => [(id, phrase.nodeClass)]

/-- A phrase that may be missing leaves its stem if it is there. -/
def Perhaps.Stemmed {form : Form} (perhaps : Perhaps form) : Prop :=
  form.Uniform → Yields [] perhaps.layout fun slot : Slot => stemsOf form.nodeClass slot.toList

/-- Phrases leave one stem each. -/
def Phrases.Stemmed {form : Form} (phrases : Phrases form) : Prop :=
  Yields [] phrases.layout phrases.stems

section Parts

variable {form : Form} {stems : List Stem} {α : Type} {outcome : α → List Stem}

/-- A phrase of a form with one class leaves a stem of this class. -/
theorem Phrase.Stemmed.plain {phrase : Phrase form} (stemmed : phrase.Stemmed)
    (uniform : form.Uniform) :
    Yields [] phrase.layout fun id => [(id, form.nodeClass)] := by
  rw [Phrase.Stemmed, phrase.nodeClass_eq uniform] at stemmed
  exact stemmed

/-- A phrase of a form with one class, and what follows it. -/
theorem Phrase.Stemmed.next {phrase : Phrase form} (stemmed : phrase.Stemmed)
    (uniform : form.Uniform) {rest : NodeId → Layout α}
    (yields : ∀ id, Yields (stems ++ [(id, form.nodeClass)]) (rest id) outcome) :
    Yields stems (phrase.layout >>= rest) outcome :=
  Yields.next (stemmed.plain uniform) yields

/-- A list of phrases of a form with one class, and what follows it. -/
theorem Phrases.Stemmed.next {phrases : Phrases form} (stemmed : phrases.Stemmed)
    (uniform : form.Uniform) {rest : List NodeId → Layout α}
    (yields : ∀ ids, Yields (stems ++ stemsOf form.nodeClass ids) (rest ids) outcome) :
    Yields stems (phrases.layout >>= rest) outcome :=
  Yields.next
    (Yields.congr stemmed fun start => phrases.stems_eq uniform (phrases.length_layout start))
    yields

/-- A phrase that may be missing, and what follows it. -/
theorem Perhaps.Stemmed.next {perhaps : Perhaps form} (stemmed : perhaps.Stemmed)
    (uniform : form.Uniform) {rest : Slot → Layout α}
    (yields : ∀ slot : Slot,
      Yields (stems ++ stemsOf form.nodeClass slot.toList) (rest slot) outcome) :
    Yields stems (perhaps.layout >>= rest) outcome :=
  Yields.next (stemmed uniform) yields

end Parts

/-- What is there alone, or a node over it and what follows. -/
theorem Layout.yields_unless {stems : List Stem} {id : NodeId} {nodeClass : NodeClass}
    {node : Node} {vacant : Bool} (alone : vacant = true → stems = [(id, nodeClass)])
    (adopts : stems = node.demands) (isClass : node.nodeClass = nodeClass) :
    Yields stems (if vacant then (pure id : Layout NodeId) else Layout.emit node)
      fun id => [(id, nodeClass)] := by
  cases vacant with
  | true =>
      exact .pure (alone rfl)
  | false => exact .emit adopts isClass

/-! ### Elements to group by -/

/-- The stems of elements to group by. -/
def elementStems (elements : List (Bool × NodeId)) : List Stem :=
  elements.map fun element => (element.2, if element.1 then .column else .groupingSet)

/-- The elements that are grouping functions. -/
def functionSets (elements : List (Bool × NodeId)) : List NodeId :=
  (elements.filter (!·.1)).map Prod.snd

/-- The elements that are plain columns. -/
def plainColumns (elements : List (Bool × NodeId)) : List NodeId :=
  (elements.filter (·.1)).map Prod.snd

/-- Elements to group by are paired with their numbers in order. -/
theorem elementStems_zip (phrases : List (Phrase .groupElement)) (ids : List NodeId) :
    elementStems ((phrases.map Phrase.isPlainElement).zip ids) =
      ids.zip (phrases.map Phrase.nodeClass) := by
  induction phrases generalizing ids with
  | nil => simp [elementStems]
  | cons phrase phrases ih =>
      cases ids with
      | nil => rfl
      | cons id ids =>
          have others := ih ids
          simp only [elementStems] at others
          simp [elementStems, others, Phrase.nodeClass, Form.nodeClass]

/-- Plain columns and sets of functions are all the elements there are. -/
theorem elementStems_perm (elements : List (Bool × NodeId)) :
    (elementStems elements).Perm
      (stemsOf .groupingSet (functionSets elements) ++
        stemsOf .column (plainColumns elements)) := by
  induction elements with
  | nil => exact .nil
  | cons element elements ih =>
      obtain ⟨isPlain, id⟩ := element
      cases isPlain with
      | true => exact (ih.cons (id, .column)).trans List.perm_middle.symm
      | false => exact ih.cons (id, .groupingSet)

theorem gatherSets_none (elements : List (Bool × NodeId)) :
    gatherSets elements none = functionSets elements := by
  simp [gatherSets, functionSets]

/-- Where the set of plain columns stands does not matter to which sets there are. -/
theorem gatherSets_some_perm (elements : List (Bool × NodeId)) (set : NodeId) :
    (gatherSets elements (some set)).Perm (functionSets elements ++ [set]) := by
  let place := (elements.takeWhile (!·.1)).length
  have gathered : gatherSets elements (some set) =
      (functionSets elements).take place ++ set :: (functionSets elements).drop place := rfl
  rw [gathered]
  refine List.perm_middle.trans ?_
  rw [List.take_append_drop]
  exact (List.perm_append_singleton set (functionSets elements)).symm

attribute [local simp] Node.demands_eq Node.fields Node.kind Kind.fields Node.values
  FieldType.accepts? FieldValue.childIds Form.nodeClass

/-- The columns among the elements become one set, and all sets one clause. -/
theorem yields_groupList (elements : List (Bool × NodeId)) :
    Yields (elementStems elements) (do
        let plain := plainColumns elements
        let plainSet ←
          if plain.isEmpty then (pure none : Layout Slot)
          else some <$> Layout.emit (.element (.groupingSet .columns (slots plain)))
        Layout.emit (.element (.groupBy false (slots (gatherSets elements plainSet)))))
      fun id => [(id, .groupBy)] := by
  have closed : ∀ plainSet : Slot,
      Yields (stemsOf .groupingSet (gatherSets elements plainSet))
        (Layout.emit (.element (.groupBy false (slots (gatherSets elements plainSet)))))
        fun id => [(id, .groupBy)] := by
    intro plainSet
    refine .emit ?_ rfl
    simp
  refine .perm (elementStems_perm elements) ?_
  dsimp only
  split
  · next vacant =>
      rw [List.isEmpty_iff.1 vacant]
      refine .bind (.pure ?_) closed
      rw [gatherSets_none]
      exact List.append_nil _
  · refine .bind
      (.map (.rearrange (.frame (.emit ?_ (?_ : _ = NodeClass.groupingSet)) _) ?_)) closed
    · simp
    · rfl
    · intro set
      have gathered := ((gatherSets_some_perm elements set).map fun id =>
        (id, NodeClass.groupingSet)).symm
      rw [List.map_append] at gathered
      exact gathered

/-! ### Longer phrases -/

/-- An aggregation adopts its columns. -/
theorem stemmed_aggregation {function : AggregateFunction} {distinct : Bool}
    {first : Phrase .column} {others : Phrases .column} (stemmed : first.Stemmed)
    (othersStemmed : others.Stemmed) :
    (Phrase.aggregation function distinct first others).Stemmed :=
  stemmed.next trivial fun _ => othersStemmed.next trivial fun _ => .emit (by simp) rfl

/-- A conversion adopts its value and its style, if it has one; the type is a text. -/
theorem stemmed_convert {lenient : Bool} {type : Verbatim} {value : Phrase .column}
    {style : Perhaps .column} (stemmed : value.Stemmed) (styleStemmed : style.Stemmed) :
    (Phrase.convert lenient type value style).Stemmed :=
  stemmed.next trivial fun _ => styleStemmed.next trivial fun _ => .emit (by simp) rfl

theorem stemmed_parse {lenient : Bool} {value : Phrase .column} {type : Verbatim}
    {culture : Perhaps .column} (stemmed : value.Stemmed) (cultureStemmed : culture.Stemmed) :
    (Phrase.parse lenient value type culture).Stemmed :=
  stemmed.next trivial fun _ => cultureStemmed.next trivial fun _ => .emit (by simp) rfl

/-- A condition and two columns, each in a slot of its own class. -/
theorem stemmed_iif {condition : Phrase .condition} {value otherwise : Phrase .column}
    (conditionStemmed : condition.Stemmed) (stemmed : value.Stemmed)
    (otherwiseStemmed : otherwise.Stemmed) : (Phrase.iif condition value otherwise).Stemmed := by
  refine conditionStemmed.next trivial fun _ => stemmed.next trivial fun _ => ?_
  exact otherwiseStemmed.next trivial fun _ => .emit (by simp) rfl

theorem stemmed_searchedCase {first : Phrase .searchedBranch} {others : Phrases .searchedBranch}
    {otherwise : Perhaps .column} (stemmed : first.Stemmed) (othersStemmed : others.Stemmed)
    (otherwiseStemmed : otherwise.Stemmed) :
    (Phrase.searchedCase first others otherwise).Stemmed := by
  refine stemmed.next trivial fun _ => othersStemmed.next trivial fun _ => ?_
  exact otherwiseStemmed.next trivial fun _ => .emit (by simp) rfl

/-- The operand is a column, and the branches are adopted as branches. -/
theorem stemmed_simpleCase {operand : Phrase .column} {first : Phrase .simpleBranch}
    {others : Phrases .simpleBranch} {otherwise : Perhaps .column}
    (operandStemmed : operand.Stemmed) (stemmed : first.Stemmed) (othersStemmed : others.Stemmed)
    (otherwiseStemmed : otherwise.Stemmed) :
    (Phrase.simpleCase operand first others otherwise).Stemmed := by
  refine operandStemmed.next trivial fun _ => stemmed.next trivial fun _ => ?_
  refine othersStemmed.next trivial fun _ => otherwiseStemmed.next trivial fun _ => ?_
  exact .emit (by simp) rfl

/-- A window over the node of a run, which stays the last one if there is none. -/
theorem yields_windowed {window : Perhaps .window} (stemmed : window.Stemmed) (run : NodeId) :
    Yields [(run, .column)] (do
        let window ← window.layout
        if window.isNone then (pure run : Layout NodeId)
        else Layout.emit (.column (.windowed (some run) window)))
      fun id => [(id, .column)] := by
  refine stemmed.next trivial fun window => yields_unless (fun vacant => ?_) ?_ rfl
  · rw [Option.isNone_iff_eq_none.1 vacant]
    rfl
  · simp

/-- Without operations the run is the first operand, and the window, if any, adopts the run. -/
theorem stemmed_column {left : Phrase .operand} {operations : Phrases .operation}
    {window : Perhaps .window} (stemmed : left.Stemmed) (operationsStemmed : operations.Stemmed)
    (windowStemmed : window.Stemmed) : (Phrase.column left operations window).Stemmed := by
  refine stemmed.next trivial fun left => operationsStemmed.next trivial fun operations => ?_
  cases operations with
  | nil => exact .bind (.pure rfl) (yields_windowed windowStemmed)
  | cons operation operations =>
      refine .bind (.emit ?_ rfl) (yields_windowed windowStemmed)
      simp

theorem stemmed_window {partitionBy : Phrases .column} {orderBy : Phrases .orderItem}
    {bounds : Option Frame} (partitionStemmed : partitionBy.Stemmed)
    (orderStemmed : orderBy.Stemmed) : (Phrase.window partitionBy orderBy bounds).Stemmed :=
  partitionStemmed.next trivial fun _ => orderStemmed.next trivial fun _ => .emit (by simp) rfl

/-- Terms with links between them, which are a condition of their own only if there are any. -/
theorem stemmed_condition {left : Phrase .term} {links : Phrases .link} (stemmed : left.Stemmed)
    (linksStemmed : links.Stemmed) : (Phrase.condition left links).Stemmed := by
  refine stemmed.next trivial fun left => linksStemmed.next trivial fun links => ?_
  refine yields_unless (fun vacant => ?_) ?_ rfl
  · rw [List.isEmpty_iff.1 vacant]
    rfl
  · simp

/-- The statement in brackets is an operand of its own, which nothing else is written for. -/
theorem stemmed_setComparison {left : Phrase .column} {operator : OrderOperator}
    {quantity : Quantifier} {statement : Phrase .statement} (stemmed : left.Stemmed)
    (statementStemmed : statement.Stemmed) :
    (Phrase.setComparison left operator quantity statement).Stemmed := by
  refine stemmed.next trivial fun left => statementStemmed.next trivial fun statement => ?_
  refine .bind (.frame (.emit ?_ (?_ : _ = NodeClass.column)) [(left, .column)]) fun right => ?_
  · simp
  · rfl
  · exact .emit (by simp) rfl

theorem stemmed_inList {column first : Phrase .column} {negated : Bool}
    {others : Phrases .column} (stemmed : column.Stemmed) (firstStemmed : first.Stemmed)
    (othersStemmed : others.Stemmed) : (Phrase.inList column negated first others).Stemmed := by
  refine stemmed.next trivial fun _ => firstStemmed.next trivial fun _ => ?_
  exact othersStemmed.next trivial fun _ => .emit (by simp) rfl

theorem stemmed_between {column lower upper : Phrase .column} {negated : Bool}
    (stemmed : column.Stemmed) (lowerStemmed : lower.Stemmed) (upperStemmed : upper.Stemmed) :
    (Phrase.between column negated lower upper).Stemmed := by
  refine stemmed.next trivial fun _ => lowerStemmed.next trivial fun _ => ?_
  exact upperStemmed.next trivial fun _ => .emit (by simp) rfl

/-- Sources with joins between them, which are a relation of their own only if there are any. -/
theorem stemmed_relation {left : Phrase .source} {joins : Phrases .join} (stemmed : left.Stemmed)
    (joinsStemmed : joins.Stemmed) : (Phrase.relation left joins).Stemmed := by
  refine stemmed.next trivial fun left => joinsStemmed.next trivial fun joins => ?_
  refine yields_unless (fun vacant => ?_) ?_ rfl
  · rw [List.isEmpty_iff.1 vacant]
    rfl
  · simp

/-- A column without an alias is its own stem. -/
theorem stemmed_selectColumn {column : Phrase .column} {called : Option Identifier}
    (stemmed : column.Stemmed) : (Phrase.selectColumn column called).Stemmed := by
  refine stemmed.next trivial fun column => ?_
  cases called with
  | none => exact .pure rfl
  | some called => exact .emit (by simp) rfl

theorem stemmed_pivot {aggregation pivotColumn first : Phrase .column}
    {others : Phrases .column} {called : Identifier} (aggregationStemmed : aggregation.Stemmed)
    (columnStemmed : pivotColumn.Stemmed) (stemmed : first.Stemmed)
    (othersStemmed : others.Stemmed) :
    (Phrase.pivot aggregation pivotColumn first others called).Stemmed := by
  refine aggregationStemmed.next trivial fun _ => columnStemmed.next trivial fun _ => ?_
  refine stemmed.next trivial fun _ => othersStemmed.next trivial fun _ => ?_
  exact .emit (by simp) rfl

/-- The elements may be of two classes, so their stems are counted one by one. -/
theorem stemmed_groupList {first : Phrase .groupElement} {others : Phrases .groupElement}
    (stemmed : first.Stemmed) (othersStemmed : others.Stemmed) :
    (Phrase.groupList first others).Stemmed := by
  rw [Phrase.Stemmed, Phrase.layout]
  refine Yields.next stemmed fun firstId => Yields.next othersStemmed fun otherIds => ?_
  have stems : [] ++ [(firstId, first.nodeClass)] ++ others.stems otherIds =
      elementStems (((first :: others.toList).map Phrase.isPlainElement).zip
        (firstId :: otherIds)) := by
    rw [elementStems_zip]
    rfl
  rw [stems]
  exact yields_groupList _

theorem stemmed_orderBy {first : Phrase .orderItem} {others : Phrases .orderItem}
    {offset fetch : Perhaps .column} (stemmed : first.Stemmed) (othersStemmed : others.Stemmed)
    (offsetStemmed : offset.Stemmed) (fetchStemmed : fetch.Stemmed) :
    (Phrase.orderBy first others offset fetch).Stemmed := by
  refine stemmed.next trivial fun _ => othersStemmed.next trivial fun _ => ?_
  refine offsetStemmed.next trivial fun _ => fetchStemmed.next trivial fun _ => ?_
  exact .emit (by simp) rfl

/-- The clauses of a block are adopted by one node, each as what it is. -/
theorem stemmed_block {chained : Bool} {link : Connective chained} {top : Perhaps .top}
    {distinct : Bool} {first : Phrase .selectColumn} {others : Phrases .selectColumn}
    {sources : Phrases .relation} {pivot : Perhaps .pivot} {filter : Perhaps .condition}
    {groupBy : Perhaps .groupBy} {having : Perhaps .condition} (topStemmed : top.Stemmed)
    (stemmed : first.Stemmed) (othersStemmed : others.Stemmed) (sourcesStemmed : sources.Stemmed)
    (pivotStemmed : pivot.Stemmed) (filterStemmed : filter.Stemmed)
    (groupByStemmed : groupBy.Stemmed) (havingStemmed : having.Stemmed) :
    (Phrase.block link top distinct first others sources pivot filter groupBy having).Stemmed := by
  refine topStemmed.next trivial fun _ => stemmed.next trivial fun _ => ?_
  refine othersStemmed.next trivial fun _ => sourcesStemmed.next trivial fun _ => ?_
  refine pivotStemmed.next trivial fun _ => filterStemmed.next trivial fun _ => ?_
  refine groupByStemmed.next trivial fun _ => havingStemmed.next trivial fun _ => ?_
  exact .emit (by simp) rfl

/-- The parts of a statement are adopted by one node. -/
theorem stemmed_statement {ctes : Phrases .cte} {first : Phrase (.block false)}
    {others : Phrases (.block true)} {orderBy : Perhaps .orderBy} {options : Perhaps .optionHints}
    (ctesStemmed : ctes.Stemmed) (stemmed : first.Stemmed) (othersStemmed : others.Stemmed)
    (orderByStemmed : orderBy.Stemmed) (optionsStemmed : options.Stemmed) :
    (Phrase.statement ctes first others orderBy options).Stemmed := by
  refine ctesStemmed.next trivial fun _ => stemmed.next trivial fun _ => ?_
  refine othersStemmed.next trivial fun _ => orderByStemmed.next trivial fun _ => ?_
  exact optionsStemmed.next trivial fun _ => .emit (by simp) rfl

/-! ### All phrases -/

mutual

/-- A phrase leaves one stem, its last node. -/
theorem Phrase.yields : {form : Form} → (phrase : Phrase form) → phrase.Stemmed
  | _, .literal value => .emit (by simp) rfl
  | _, .null => .emit (by simp) rfl
  | _, .star table => .emit (by simp) rfl
  | _, .variable name => .emit (by simp) rfl
  | _, .reference table name => .emit (by simp) rfl
  | _, .function name arguments => arguments.yields.next trivial fun _ => .emit (by simp) rfl
  | _, .aggregation _ _ first others => stemmed_aggregation first.yields others.yields
  | _, .cast lenient value type => value.yields.next trivial fun _ => .emit (by simp) rfl
  | _, .convert _ _ value style => stemmed_convert value.yields style.yields
  | _, .parse _ value _ culture => stemmed_parse value.yields culture.yields
  | _, .iif condition value otherwise =>
      stemmed_iif condition.yields value.yields otherwise.yields
  | _, .searchedCase first others otherwise =>
      stemmed_searchedCase first.yields others.yields otherwise.yields
  | _, .simpleCase operand first others otherwise =>
      stemmed_simpleCase operand.yields first.yields others.yields otherwise.yields
  | _, .bracketedColumn inner => inner.yields.next trivial fun _ => .emit (by simp) rfl
  | _, .subselect statement => statement.yields.next trivial fun _ => .emit (by simp) rfl
  | _, .negated operand => operand.yields.next trivial fun _ => .emit (by simp) rfl
  | _, .column left operations window =>
      stemmed_column left.yields operations.yields window.yields
  | _, .operation operator operand => operand.yields.next trivial fun _ => .emit (by simp) rfl
  | _, .searchedBranch condition result => condition.yields.next trivial fun _ =>
      result.yields.next trivial fun _ => .emit (by simp) rfl
  | _, .simpleBranch value result => value.yields.next trivial fun _ =>
      result.yields.next trivial fun _ => .emit (by simp) rfl
  | _, .window partitionBy orderBy _ => stemmed_window partitionBy.yields orderBy.yields
  | _, .orderItem column collation direction =>
      column.yields.next trivial fun _ => .emit (by simp) rfl
  | _, .condition left links => stemmed_condition left.yields links.yields
  | _, .link operator term => term.yields.next trivial fun _ => .emit (by simp) rfl
  | _, .comparison left operator right => left.yields.next trivial fun _ =>
      right.yields.next trivial fun _ => .emit (by simp) rfl
  | _, .like left negated right => left.yields.next trivial fun _ =>
      right.yields.next trivial fun _ => .emit (by simp) rfl
  | _, .setComparison left _ _ statement => stemmed_setComparison left.yields statement.yields
  | _, .inList column _ first others =>
      stemmed_inList column.yields first.yields others.yields
  | _, .inSelect column negated statement => column.yields.next trivial fun _ =>
      statement.yields.next trivial fun _ => .emit (by simp) rfl
  | _, .between column _ lower upper =>
      stemmed_between column.yields lower.yields upper.yields
  | _, .isNull column negated => column.yields.next trivial fun _ => .emit (by simp) rfl
  | _, .exists statement => statement.yields.next trivial fun _ => .emit (by simp) rfl
  | _, .not term => term.yields.next trivial fun _ => .emit (by simp) rfl
  | _, .bracketedCondition inner => inner.yields.next trivial fun _ => .emit (by simp) rfl
  | _, .relation left joins => stemmed_relation left.yields joins.yields
  | _, .joinOn type _ source condition => source.yields.next trivial fun _ =>
      condition.yields.next trivial fun _ => .emit (by simp) rfl
  | _, .joinFree type _ source => source.yields.next trivial fun _ => .emit (by simp) rfl
  | _, .table name called => .emit (by simp) rfl
  | _, .bracketedRelation inner => inner.yields.next trivial fun _ => .emit (by simp) rfl
  | _, .derived statement called => statement.yields.next trivial fun _ => .emit (by simp) rfl
  | _, .selectColumn column _ => stemmed_selectColumn column.yields
  | _, .top count percent withTies => count.yields.next trivial fun _ => .emit (by simp) rfl
  | _, .pivot aggregation pivotColumn first others _ =>
      stemmed_pivot aggregation.yields pivotColumn.yields first.yields others.yields
  | _, .groupingSets first others => first.yields.next trivial fun _ =>
      others.yields.next trivial fun _ => .emit (by simp) rfl
  | _, .groupList first others => stemmed_groupList first.yields others.yields
  | _, .columnSet columns => columns.yields.next trivial fun _ => .emit (by simp) rfl
  | _, .functionSet function first others => first.yields.next trivial fun _ =>
      others.yields.next trivial fun _ => .emit (by simp) rfl
  | _, .functionGroup set => set.yields.plain trivial
  | _, .plainElement column => column.yields.plain trivial
  | _, .functionElement set => set.yields.plain trivial
  | _, .orderBy first others offset fetch =>
      stemmed_orderBy first.yields others.yields offset.yields fetch.yields
  | _, .optionHints first others => .emit (by simp) rfl
  | _, .block _ top _ first others sources pivot filter groupBy having =>
      stemmed_block top.yields first.yields others.yields sources.yields pivot.yields filter.yields
        groupBy.yields having.yields
  | _, .cte name columns statement => statement.yields.next trivial fun _ => .emit (by simp) rfl
  | _, .statement ctes first others orderBy options =>
      stemmed_statement ctes.yields first.yields others.yields orderBy.yields options.yields

/-- A phrase that may be missing leaves its stem if it is there. -/
theorem Perhaps.yields : {form : Form} → (perhaps : Perhaps form) → perhaps.Stemmed
  | _, .absent, _ => .pure rfl
  | _, .present phrase, uniform => phrase.yields.next uniform fun _ => .pure rfl

/-- Phrases leave one stem each. -/
theorem Phrases.yields : {form : Form} → (phrases : Phrases form) → phrases.Stemmed
  | _, .nil => .pure rfl
  | _, .cons first others =>
      Yields.next first.yields fun _ => Yields.next others.yields fun _ => .pure rfl

end

end Yields

end SelectTree
