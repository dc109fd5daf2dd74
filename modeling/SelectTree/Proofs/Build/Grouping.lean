/-
Module: SelectTree.Proofs.Build.Grouping
Purpose: what becomes of a list to group by: the grouping functions stay in their order, and the
  plain columns are gathered in the place of the first of them.
Main exports: Build.GroupElement, Build.ReadsElements, Build.Gathers, Build.plain_columns_gathered
-/
import SelectTree.Proofs.Build.Progress

namespace SelectTree

/-- The slot holds the set of the plain columns of a list. -/
def Tree.isColumnsSet (tree : Tree) (slot : Slot) : Bool :=
  match slot.bind tree.node? with
  | some (.element (.groupingSet .columns _)) => true
  | _ => false

namespace Build

/-! ### Elements -/

/-- An element of a list to group by, with the node that was read for it. -/
inductive GroupElement where
  | function (function : GroupingFunction) (set : NodeId)
  | plain (column : NodeId)
deriving Repr, Inhabited, DecidableEq

namespace GroupElement

/-- The set of a grouping function. -/
def set? : GroupElement → Option NodeId
  | .function _ set => some set
  | .plain _ => none

/-- A plain column. -/
def column? : GroupElement → Option NodeId
  | .function .. => none
  | .plain column => some column

/-- The element as it is remembered while the list is read. -/
def entry : GroupElement → Bool × NodeId
  | .function _ set => (false, set)
  | .plain column => (true, column)

theorem functions_entries (elements : List GroupElement) :
    ((elements.map entry).filter (!·.1)).map Prod.snd = elements.filterMap set? := by
  induction elements with
  | nil => rfl
  | cons element elements ih => cases element <;> simpa [List.filterMap_cons, entry, set?] using ih

theorem columns_entries (elements : List GroupElement) :
    ((elements.map entry).filter (·.1)).map Prod.snd = elements.filterMap column? := by
  induction elements with
  | nil => rfl
  | cons element elements ih =>
      cases element <;> simpa [List.filterMap_cons, entry, column?] using ih

/-- Where no plain column stands, each element has its set. -/
theorem length_sets {elements : List GroupElement}
    (functions : ∀ element ∈ elements, element.column? = none) :
    (elements.filterMap set?).length = elements.length := by
  induction elements with
  | nil => rfl
  | cons element elements ih =>
      obtain ⟨here, further⟩ := List.forall_mem_cons.1 functions
      cases element with
      | function function set => simpa [set?] using ih further
      | plain column => cases here

theorem takeWhile_entries (elements : List GroupElement) :
    (elements.map entry).takeWhile (!·.1) =
      (elements.takeWhile fun element => element.column?.isNone).map entry := by
  rw [List.takeWhile_map]
  congr 2
  funext element
  cases element <;> rfl

/-- The grouping functions in front of the first plain column. -/
theorem takeWhile_functions {before : List GroupElement} (column : NodeId)
    (behind : List GroupElement) (functions : ∀ element ∈ before, element.column? = none) :
    (before ++ .plain column :: behind).takeWhile (fun element => element.column?.isNone) =
      before := by
  have pass : ∀ element ∈ before, element.column?.isNone = true := fun element member =>
    Option.isNone_iff_eq_none.2 (functions element member)
  rw [List.takeWhile_append_of_pos pass, List.takeWhile_cons_of_neg (by simp [column?]),
    List.append_nil]

/-- There is no plain column, or there is a first one. -/
theorem functions_or_plain (elements : List GroupElement) :
    (∀ element ∈ elements, element.column? = none) ∨
      ∃ before column behind, elements = before ++ .plain column :: behind ∧
        ∀ element ∈ before, element.column? = none := by
  induction elements with
  | nil => exact .inl nofun
  | cons element elements ih =>
      cases element with
      | plain column => exact .inr ⟨[], column, elements, rfl, nofun⟩
      | function function set =>
          rcases ih with functions | ⟨before, column, behind, rfl, functions⟩
          · exact .inl (List.forall_mem_cons.2 ⟨rfl, functions⟩)
          · exact .inr ⟨.function function set :: before, column, behind, rfl,
              List.forall_mem_cons.2 ⟨rfl, functions⟩⟩

/-- With plain columns, their set stands between the sets in front of the first of them and the
others. -/
theorem gatherSets_of_plain {before behind : List GroupElement} {column set : NodeId}
    (functions : ∀ element ∈ before, element.column? = none) :
    gatherSets ((before ++ .plain column :: behind).map entry) (some set) =
      before.filterMap set? ++ set :: behind.filterMap set? := by
  have sets : (before ++ .plain column :: behind).filterMap set? =
      before.filterMap set? ++ behind.filterMap set? := by
    simp [List.filterMap_cons, set?]
  have place : (before.map entry).length = (before.filterMap set?).length := by
    rw [List.length_map, length_sets functions]
  rw [gatherSets, functions_entries, takeWhile_entries,
    takeWhile_functions column behind functions, sets, place,
    List.take_left, List.drop_left]
  rfl

theorem gatherSets_none (elements : List GroupElement) :
    gatherSets (elements.map entry) none = elements.filterMap set? := by
  rw [gatherSets, functions_entries]
  exact List.take_append_drop _ _

end GroupElement

/-! ### How a list is read -/

/-- An element is read: a grouping function where a bracket follows its keyword, and a column
everywhere else. -/
inductive ReadsElement (rules : Rules) (limits : Limits) :
    Workspace → GroupElement → Workspace → Prop where
  | function {before after : Workspace} {function : GroupingFunction} {set : NodeId} :
      Grammar.groupingFunction? before.words = some function →
      (functionSet rules function).on limits before = (.ok set, after) →
      ReadsElement rules limits before (.function function set) after
  | plain {before after : Workspace} {column : NodeId} :
      Grammar.groupingFunction? before.words = none →
      rules.column.on limits before = (.ok column, after) →
      ReadsElement rules limits before (.plain column) after

/-- Elements are read, from the first to the last, each behind the comma behind the one before
it. -/
inductive ReadsElements (rules : Rules) (limits : Limits) :
    Workspace → List GroupElement → Workspace → Prop where
  | last {before after : Workspace} {element : GroupElement} :
      ReadsElement rules limits before element after →
      ReadsElements rules limits before [element] after
  | comma {before middle after : Workspace} {element : GroupElement}
      {elements : List GroupElement} {comma : Word} {rest : Words} :
      ReadsElement rules limits before element middle →
      middle.words = comma :: rest → comma.kind = .comma →
      ReadsElements rules limits { middle with words := rest } elements after →
      ReadsElements rules limits before (element :: elements) after

section

variable {rules : Rules} {limits : Limits} {before after : Workspace}

theorem exists_readsElement {entry : Bool × NodeId}
    (ran : (groupElement rules).on limits before = (.ok entry, after)) :
    ∃ element, ReadsElement rules limits before element after ∧ element.entry = entry := by
  obtain ⟨words, left, looked, ranElement⟩ := Builder.on_bind_ok_iff.1 ran
  cases looked
  cases isFunction : Grammar.groupingFunction? before.words with
  | some function =>
      rw [isFunction] at ranElement
      obtain ⟨set, _, ranSet, ended⟩ := Builder.on_bind_ok_iff.1 ranElement
      cases ended
      exact ⟨.function function set, .function isFunction ranSet, rfl⟩
  | none =>
      rw [isFunction] at ranElement
      obtain ⟨column, _, ranColumn, ended⟩ := Builder.on_bind_ok_iff.1 ranElement
      cases ended
      exact ⟨.plain column, .plain isFunction ranColumn, rfl⟩

/-- Behind a comma an item is read, and without one nothing is. -/
theorem commaItem_cases {α : Type} {item : Builder α} {found : Option α}
    (ran : (Builder.commaItem item).on limits before = (.ok found, after)) :
    (found = none ∧ (∀ word ∈ before.words.head?, word.kind ≠ .comma) ∧ after = before) ∨
      ∃ comma rest value, found = some value ∧ before.words = comma :: rest ∧
        comma.kind = .comma ∧
        item.on limits { before with words := rest } = (.ok value, after) := by
  obtain ⟨ate, left, readComma, behindComma⟩ := Builder.on_bind_ok_iff.1 ran
  rcases Builder.on_eat_cases readComma with
    ⟨rfl, noComma, rfl⟩ | ⟨comma, rest, rfl, words, kind, rfl⟩
  · cases behindComma
    exact .inl ⟨rfl, noComma, rfl⟩
  · obtain ⟨value, _, ranItem, ended⟩ := Builder.on_bind_ok_iff.1 behindComma
    cases ended
    exact .inr ⟨comma, rest, value, rfl, words, kind, ranItem⟩

/-- The first element and what is read behind it, by induction on the rounds of the loop. -/
theorem exists_readsElements {count : Nat} {middle : Workspace} {element : GroupElement}
    {entries : List (Bool × NodeId)} (first : ReadsElement rules limits before element middle)
    (ran : (Builder.manyUpTo (Builder.commaItem (groupElement rules)) count).on limits middle =
      (.ok entries, after)) :
    ∃ elements, ReadsElements rules limits before (element :: elements) after ∧
      elements.map GroupElement.entry = entries := by
  induction count generalizing before middle element entries with
  | zero =>
      cases ran
      exact ⟨[], .last first, rfl⟩
  | succ count ih =>
      obtain ⟨found, next, ranItem, ranOthers⟩ := Builder.on_bind_ok_iff.1 ran
      rcases commaItem_cases ranItem with
        ⟨rfl, -, rfl⟩ | ⟨comma, rest, entry, rfl, words, kind, ranNext⟩
      · cases ranOthers
        exact ⟨[], .last first, rfl⟩
      · obtain ⟨others, left, ranLeft, ended⟩ := Builder.on_bind_ok_iff.1 ranOthers
        cases ended
        obtain ⟨second, readSecond, rfl⟩ := exists_readsElement ranNext
        obtain ⟨elements, reads, rfl⟩ := ih readSecond ranLeft
        exact ⟨second :: elements, .comma first words kind reads, rfl⟩

/-- A loop that ends before its rounds are used up ends where no comma stands. -/
theorem no_comma_of_length_lt {α : Type} {item : Builder α} {count : Nat} {values : List α}
    (ran : (Builder.manyUpTo (Builder.commaItem item) count).on limits before =
      (.ok values, after)) :
    values.length ≤ count ∧
      (values.length < count → ∀ word ∈ after.words.head?, word.kind ≠ .comma) := by
  induction count generalizing before values with
  | zero =>
      cases ran
      exact ⟨Nat.le_refl 0, fun less => absurd less (Nat.not_lt_zero _)⟩
  | succ count ih =>
      obtain ⟨found, next, ranItem, ranOthers⟩ := Builder.on_bind_ok_iff.1 ran
      rcases commaItem_cases ranItem with ⟨rfl, none, rfl⟩ | ⟨_, _, value, rfl, -⟩
      · cases ranOthers
        exact ⟨Nat.zero_le _, fun _ => none⟩
      · obtain ⟨others, left, ranLeft, ended⟩ := Builder.on_bind_ok_iff.1 ranOthers
        cases ended
        obtain ⟨few, ends⟩ := ih ranLeft
        exact ⟨Nat.succ_le_succ few, fun less => ends (Nat.lt_of_succ_lt_succ less)⟩

end

/-- Without hooks the loop over the elements comes to its own end. -/
theorem no_comma_behind_elements {depth : Nat} {limits : Limits} {before after : Workspace}
    {entries : List (Bool × NodeId)} (hookless : limits.hooks = {})
    (ran : (Builder.many (Builder.commaItem (groupElement (rules depth)))).on limits before =
      (.ok entries, after)) :
    ∀ word ∈ after.words.head?, word.kind ≠ .comma := by
  have stable {count : Nat} (enough : before.words.length ≤ count) :=
    (Loop.groupElements.stable depth hookless enough).trans ran
  obtain ⟨few, -⟩ := no_comma_of_length_lt (stable (Nat.le_refl _))
  obtain ⟨-, ends⟩ := no_comma_of_length_lt (stable (Nat.le_succ _))
  exact ends (Nat.lt_succ_of_le few)

/-! ### The nodes of the elements -/

theorem exists_node_of_functionSet {rules : Rules} {function : GroupingFunction}
    {limits : Limits} {before after : Workspace} {set : NodeId}
    (ran : (functionSet rules function).on limits before = (.ok set, after)) :
    ∃ columns, after.tree.node? set = some (.element (.groupingSet function.kind columns)) := by
  obtain ⟨_, left, skipped, ranBracket⟩ := Builder.on_bind_ok_iff.1 ran
  obtain ⟨group, room, last, -, -, inside, rfl⟩ := Builder.exists_of_on_bracketed ranBracket
  obtain ⟨columns, behind, -, added⟩ := Builder.on_bind_ok_iff.1 inside
  cases columns with
  | nil => cases added
  | cons first others =>
      cases added
      exact ⟨slots (first :: others), Tree.node?_attach_nextId ..⟩

/-- The rule of an element only adds nodes. -/
theorem ReadsElement.exists_nodes {depth : Nat} {limits : Limits} {before after : Workspace}
    {element : GroupElement} (reads : ReadsElement (rules depth) limits before element after)
    (closed : before.tree.Closed) : ∃ nodes, after.tree = before.tree.attachAll nodes := by
  have follow := rules_follow depth
  cases reads with
  | @function _ function _ _ ran =>
      obtain ⟨_, nodes, outcome, -⟩ :=
        (builds_functionSet follow function).adds limits before closed
      rw [ran] at outcome
      exact ⟨nodes, congrArg Workspace.tree outcome⟩
  | plain _ ran =>
      obtain ⟨_, nodes, outcome, -⟩ := follow.column.adds limits before closed
      rw [ran] at outcome
      exact ⟨nodes, congrArg Workspace.tree outcome⟩

/-- The sets of the grouping functions are still there when all elements are read. -/
theorem ReadsElements.exists_nodes {depth : Nat} {limits : Limits} {before after : Workspace}
    {elements : List GroupElement}
    (reads : ReadsElements (rules depth) limits before elements after)
    (closed : before.tree.Closed) :
    (∃ nodes, after.tree = before.tree.attachAll nodes) ∧
      ∀ function set, .function function set ∈ elements →
        ∃ columns, after.tree.node? set = some (.element (.groupingSet function.kind columns)) := by
  induction reads with
  | last first =>
      refine ⟨first.exists_nodes closed, fun function set member => ?_⟩
      cases List.mem_singleton.1 member
      cases first with
      | function _ ran => exact exists_node_of_functionSet ran
  | @comma before middle after _ elements _ _ first _ _ _ ih =>
      obtain ⟨nodes, grown⟩ := first.exists_nodes closed
      have closedMiddle : middle.tree.Closed := grown ▸ closed.attachAll nodes
      obtain ⟨⟨more, grownAgain⟩, sets⟩ := ih closedMiddle
      constructor
      · refine ⟨nodes ++ more, ?_⟩
        rw [grownAgain, Tree.attachAll_append, ← grown]
      · intro function set member
        rcases List.mem_cons.1 member with rfl | member
        · cases first with
          | function _ ran =>
              obtain ⟨columns, found⟩ := exists_node_of_functionSet ran
              refine ⟨columns, ?_⟩
              rw [grownAgain, Tree.node?_attachAll_of_has (Tree.has_of_node? found), found]
        · exact sets function set member

/-! ### What is gathered -/

/-- The sets are those of the list: each grouping function has a set of its kind; without the set of
the plain columns these sets stand in their order; without a plain column there is no set of plain
columns; and with one there is one such set, which holds the plain columns in their order and has as
many sets in front of it as there are grouping functions in front of the first plain column. -/
structure Gathers (tree : Tree) (elements : List GroupElement) (sets : List Slot) : Prop where
  kinds : ∀ function set, .function function set ∈ elements →
    ∃ columns, tree.node? set = some (.element (.groupingSet function.kind columns))
  functions : sets.filter (!tree.isColumnsSet ·) = slots (elements.filterMap GroupElement.set?)
  bare : (∀ element ∈ elements, element.column? = none) → sets.filter tree.isColumnsSet = []
  gathered : (∃ element ∈ elements, element.column? ≠ none) →
    ∃ set, sets.filter tree.isColumnsSet = [some set] ∧
      sets[(elements.takeWhile fun element => element.column?.isNone).length]? = some (some set) ∧
      tree.node? set = some
        (.element (.groupingSet .columns (slots (elements.filterMap GroupElement.column?))))

section

variable {tree : Tree} {ids : List NodeId}

/-- Where no set of the plain columns is, the sets stay when it is removed. -/
theorem filter_slots_of_other (others : ∀ id ∈ ids, tree.isColumnsSet (some id) = false) :
    (slots ids).filter (!tree.isColumnsSet ·) = slots ids ∧
      (slots ids).filter tree.isColumnsSet = [] := by
  constructor
  · refine List.filter_eq_self.2 fun slot member => ?_
    obtain ⟨id, isId, rfl⟩ := List.mem_map.1 member
    rw [others id isId, Bool.not_false]
  · refine List.filter_eq_nil_iff.2 fun slot member => ?_
    obtain ⟨id, isId, rfl⟩ := List.mem_map.1 member
    exact Bool.eq_false_iff.1 (others id isId)

end

theorem isColumnsSet_of_function {tree : Tree} {elements : List GroupElement}
    (kinds : ∀ function set, .function function set ∈ elements →
      ∃ columns, tree.node? set = some (.element (.groupingSet function.kind columns))) :
    ∀ set ∈ elements.filterMap GroupElement.set?, tree.isColumnsSet (some set) = false := by
  intro set member
  obtain ⟨element, isElement, isSet⟩ := List.mem_filterMap.1 member
  cases element with
  | function function _ =>
      cases isSet
      obtain ⟨columns, found⟩ := kinds function set isElement
      rw [Tree.isColumnsSet, Option.bind_some, found]
      cases function <;> rfl
  | plain => cases isSet

/-- Without a plain column there is nothing to gather. -/
theorem gathers_functions {tree : Tree} {elements : List GroupElement}
    (kinds : ∀ function set, .function function set ∈ elements →
      ∃ columns, tree.node? set = some (.element (.groupingSet function.kind columns)))
    (functions : ∀ element ∈ elements, element.column? = none) :
    Gathers tree elements (slots (gatherSets (elements.map GroupElement.entry) none)) := by
  rw [GroupElement.gatherSets_none]
  obtain ⟨kept, nothing⟩ := filter_slots_of_other (isColumnsSet_of_function kinds)
  refine ⟨kinds, kept, fun _ => nothing, ?_⟩
  rintro ⟨element, member, isPlain⟩
  exact absurd (functions element member) isPlain

/-- With a plain column, all of them are gathered in the place of the first. -/
theorem gathers_columns {tree : Tree} {before behind : List GroupElement} {column set : NodeId}
    (kinds : ∀ function set, .function function set ∈ before ++ .plain column :: behind →
      ∃ columns, tree.node? set = some (.element (.groupingSet function.kind columns)))
    (functions : ∀ element ∈ before, element.column? = none)
    (found : tree.node? set = some (.element (.groupingSet .columns
      (slots ((before ++ .plain column :: behind).filterMap GroupElement.column?))))) :
    Gathers tree (before ++ .plain column :: behind) (slots
      (gatherSets ((before ++ .plain column :: behind).map GroupElement.entry) (some set))) := by
  have others := isColumnsSet_of_function kinds
  have isSet : tree.isColumnsSet (some set) = true := by
    rw [Tree.isColumnsSet, Option.bind_some, found]
  have sets : (before ++ .plain column :: behind).filterMap GroupElement.set? =
      before.filterMap GroupElement.set? ++ behind.filterMap GroupElement.set? := by
    simp [List.filterMap_cons, GroupElement.set?]
  rw [sets] at others
  obtain ⟨othersBefore, othersBehind⟩ := List.forall_mem_append.1 others
  obtain ⟨keptBefore, nothingBefore⟩ := filter_slots_of_other othersBefore
  obtain ⟨keptBehind, nothingBehind⟩ := filter_slots_of_other othersBehind
  have parts : slots (gatherSets
      ((before ++ .plain column :: behind).map GroupElement.entry) (some set)) =
      slots (before.filterMap GroupElement.set?) ++
        some set :: slots (behind.filterMap GroupElement.set?) := by
    rw [GroupElement.gatherSets_of_plain functions, slots, List.map_append, List.map_cons]
    rfl
  have place : (slots (before.filterMap GroupElement.set?)).length = before.length := by
    rw [slots, List.length_map, GroupElement.length_sets functions]
  rw [parts]
  refine ⟨kinds, ?functions, ?bare, ?gathered⟩
  case functions =>
    rw [sets, List.filter_append, List.filter_cons_of_neg (by simp [isSet]), keptBefore, keptBehind]
    simp [slots]
  case bare =>
    intro bare
    cases bare (.plain column) (List.mem_append_right before List.mem_cons_self)
  case gathered =>
    intro _
    refine ⟨set, ?_, ?_, found⟩
    · rw [List.filter_append, List.filter_cons_of_pos isSet, nothingBefore, nothingBehind]
      rfl
    · rw [GroupElement.takeWhile_functions column behind functions, ← place,
        List.getElem?_append_right (Nat.le_refl _), Nat.sub_self]
      rfl

/-- The set of the plain columns is added if there are any, and what is gathered with it stays as it
is when the node of the list is added. -/
theorem gathers_of_addPlainSet {limits : Limits} {before after : Workspace}
    {elements : List GroupElement} {plainSet : Slot}
    (ran : (addPlainSet (elements.map GroupElement.entry)).on limits before =
      (.ok plainSet, after))
    (kinds : ∀ function set, .function function set ∈ elements →
      ∃ columns, before.tree.node? set = some (.element (.groupingSet function.kind columns)))
    (node : Node) :
    after.words = before.words ∧ Gathers (after.tree.attach node) elements
      (slots (gatherSets (elements.map GroupElement.entry) plainSet)) := by
  rw [addPlainSet, GroupElement.columns_entries] at ran
  have stays {tree : Tree} {set : NodeId} {found : Node} (there : tree.node? set = some found)
      (added : Node) : (tree.attach added).node? set = some found :=
    (Tree.node?_attach_of_has _ _ (Tree.has_of_node? there)).trans there
  rcases GroupElement.functions_or_plain elements with
    functions | ⟨front, column, behind, rfl, functions⟩
  · have none : elements.filterMap GroupElement.column? = [] :=
      List.filterMap_eq_nil_iff.2 functions
    rw [none] at ran
    cases ran
    refine ⟨rfl, gathers_functions (fun function set member => ?_) functions⟩
    obtain ⟨columns, found⟩ := kinds function set member
    exact ⟨columns, stays found node⟩
  · have some : ((front ++ .plain column :: behind).filterMap GroupElement.column?).isEmpty =
        false := by
      simp [GroupElement.column?]
    rw [some] at ran
    cases ran
    refine ⟨rfl, gathers_columns (fun function set member => ?_) functions ?_⟩
    · obtain ⟨columns, found⟩ := kinds function set member
      exact ⟨columns, stays (stays found _) node⟩
    · exact stays (Tree.node?_attach_nextId ..) node

/-- Behind `GROUP BY` a list is read, unless `GROUPING` stands there. -/
theorem exists_list_of_groupBy {rules : Rules} {limits : Limits} {workspace after : Workspace}
    {id : NodeId} (accepted : (groupBy rules).on limits workspace = (.ok id, after))
    (noSets : workspace.words[2]?.map Word.kind ≠ some (.keyword .GROUPING)) :
    ∃ group by_ list, workspace.words = group :: by_ :: list ∧
      group.kind = .keyword .GROUP ∧ by_.kind = .keyword .BY ∧
      (do
        let (first, others) ← Builder.commaList (groupElement rules)
        let plainSet ← addPlainSet (first :: others)
        Builder.add
          (.element (.groupBy false (slots (gatherSets (first :: others) plainSet))))).on limits
        { workspace with words := list } = (.ok id, after) := by
  obtain ⟨group, _, readGroup, behindGroup⟩ := Builder.on_bind_ok_iff.1 accepted
  obtain ⟨_, isGroup, rfl⟩ := Builder.exists_of_on_read readGroup
  obtain ⟨groupKind, words⟩ := Parser.expectKeyword_ok_iff.1 isGroup
  obtain ⟨by_, _, readBy, behindBy⟩ := Builder.on_bind_ok_iff.1 behindGroup
  obtain ⟨list, isBy, rfl⟩ := Builder.exists_of_on_read readBy
  obtain ⟨byKind, rfl⟩ := Parser.expectKeyword_ok_iff.1 isBy
  obtain ⟨_, _, readGrouping, behindGrouping⟩ := Builder.on_bind_ok_iff.1 behindBy
  rcases Builder.on_eat_cases readGrouping with ⟨rfl, -, rfl⟩ | ⟨word, _, rfl, isNext, kind, rfl⟩
  · exact ⟨group, by_, list, words, groupKind, byKind, behindGrouping⟩
  · obtain rfl : list = word :: _ := isNext
    refine absurd ?_ noSets
    rw [words, List.getElem?_cons_succ, List.getElem?_cons_succ, List.getElem?_cons_zero,
      Option.map_some, kind]

/-- Whatever the words, the level of nesting and the hooks are: if a list to group by is accepted,
then its elements were read one behind the other, and the node that is added last holds the sets as
they are gathered from them.  Without hooks the list is read to its end, behind which no comma
stands. -/
theorem plain_columns_gathered {depth : Nat} {limits : Limits} {workspace after : Workspace}
    {id : NodeId} (closed : workspace.tree.Closed)
    (accepted : (groupBy (rules depth)).on limits workspace = (.ok id, after))
    (noSets : workspace.words[2]?.map Word.kind ≠ some (.keyword .GROUPING)) :
    ∃ group by_ list elements left sets,
      workspace.words = group :: by_ :: list ∧
      group.kind = .keyword .GROUP ∧ by_.kind = .keyword .BY ∧
      ReadsElements (rules depth) limits { workspace with words := list } elements left ∧
      (limits.hooks = {} → ∀ word ∈ left.words.head?, word.kind ≠ .comma) ∧
      after.words = left.words ∧
      after.tree.node? id = some (.element (.groupBy false sets)) ∧
      Gathers after.tree elements sets := by
  obtain ⟨group, by_, list, words, groupKind, byKind, ran⟩ := exists_list_of_groupBy accepted noSets
  obtain ⟨⟨first, others⟩, left, ranList, behindList⟩ := Builder.on_bind_ok_iff.1 ran
  obtain ⟨_, middle, ranFirst, ranBehind⟩ := Builder.on_bind_ok_iff.1 ranList
  obtain ⟨_, _, ranMany, ended⟩ := Builder.on_bind_ok_iff.1 ranBehind
  cases ended
  obtain ⟨element, readsFirst, rfl⟩ := exists_readsElement ranFirst
  obtain ⟨_, _, looked, ranLoop⟩ := Builder.on_bind_ok_iff.1 ranMany
  cases looked
  obtain ⟨elements, reads, rfl⟩ := exists_readsElements readsFirst ranLoop
  obtain ⟨-, kinds⟩ := reads.exists_nodes closed
  obtain ⟨plainSet, last, ranSet, added⟩ := Builder.on_bind_ok_iff.1 behindList
  rw [← List.map_cons] at ranSet
  obtain ⟨same, gathers⟩ := gathers_of_addPlainSet ranSet kinds (.element (.groupBy false
    (slots (gatherSets ((element :: elements).map GroupElement.entry) plainSet))))
  cases added
  exact ⟨group, by_, list, element :: elements, left, _, words, groupKind, byKind, reads,
    fun hookless => no_comma_behind_elements hookless ranMany, same, Tree.node?_attach_nextId ..,
    gathers⟩

/-- The words of `GROUP BY ROLLUP (a), b, CUBE (c), d`. -/
def mixedList : Workspace :=
  { words := (TokenStream.ofString "GROUP BY ROLLUP (a), b, CUBE (c), d").words
    nesting := 0
    tree := .new }

/-- The set of `b` and `d` stands where `b` does, between the two other sets. -/
theorem plain_columns_gathered_mixedList :
    let sets := [some ⟨2⟩, some ⟨7⟩, some ⟨5⟩]
    ∃ elements left after, (groupBy (rules 15)).on { room := 1 } mixedList = (.ok ⟨8⟩, after) ∧
      ReadsElements (rules 15) { room := 1 } { mixedList with words := mixedList.words.drop 2 }
        elements left ∧
      after.tree.node? ⟨8⟩ = some (.element (.groupBy false sets)) ∧
      Gathers after.tree elements sets := by
  intro sets
  have value : ((groupBy (rules 15)).on { room := 1 } mixedList).1 = .ok ⟨8⟩ := by
    decide +kernel
  have node : ((groupBy (rules 15)).on { room := 1 } mixedList).2.tree.node? ⟨8⟩ =
      some (.element (.groupBy false sets)) := by
    decide +kernel
  have noSets : mixedList.words[2]?.map Word.kind ≠ some (.keyword .GROUPING) := by
    decide +kernel
  rcases ran : (groupBy (rules 15)).on { room := 1 } mixedList with ⟨answer, after⟩
  rw [ran] at value node
  obtain rfl : answer = .ok ⟨8⟩ := value
  obtain ⟨_, _, list, elements, left, found, words, -, -, reads, -, -, stored, gathers⟩ :=
    plain_columns_gathered .new ran noSets
  rw [node] at stored
  cases stored
  have isList : list = mixedList.words.drop 2 := by rw [words]; rfl
  subst isList
  exact ⟨elements, left, after, rfl, reads, node, gathers⟩

end Build

end SelectTree
