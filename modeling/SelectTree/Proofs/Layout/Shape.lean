/-
Module: SelectTree.Proofs.Layout.Shape
Purpose: the nodes of a phrase are nodes that the grammar describes.
Main exports: Placed, Layout.Ensures, Phrase.Ensured, Phrase.ensures

Every tree in which the nodes of a phrase have the numbers that the layout gives them shows them
in this way.  So the nodes are described once, and hold for each tree that the phrase is part of.
-/
import SelectTree.Proofs.Node.Shape

namespace SelectTree

/-- The nodes have the numbers from `start` on. -/
def Placed (look : LookUp) (start : Nat) (nodes : List Node) : Prop :=
  ∀ index node, nodes[index]? = some node → look ⟨start + index⟩ = some node

theorem Placed.append_iff {look : LookUp} {start : Nat} {first second : List Node} :
    Placed look start (first ++ second) ↔
      Placed look start first ∧ Placed look (start + first.length) second := by
  constructor
  · intro placed
    refine ⟨fun index node found => ?_, fun index node found => ?_⟩
    · apply placed
      rw [List.getElem?_append_left (List.getElem?_eq_some_iff.1 found).1, found]
    · have behind := placed (first.length + index) node
      rw [List.getElem?_append_right (Nat.le_add_right ..), Nat.add_sub_cancel_left,
        ← Nat.add_assoc] at behind
      exact behind found
  · rintro ⟨one, two⟩ index node found
    rcases Nat.lt_or_ge index first.length with before | behind
    · rw [List.getElem?_append_left before] at found
      exact one index node found
    · rw [List.getElem?_append_right behind] at found
      have placed := two (index - first.length) node found
      rwa [Nat.add_assoc, Nat.add_sub_cancel' behind] at placed

/-! ### Where the nodes of a phrase are -/

theorem Phrase.bounds {form : Form} (phrase : Phrase form) (start : Nat) :
    start ≤ (phrase.layout.run start).1.index ∧
      (phrase.layout.run start).1.index < start + (phrase.layout.run start).2.length :=
  (phrase.yields.sprout start).bounds _ (List.mem_singleton_self _)

/-- Of two phrases of a list, the nodes of the second are behind those of the first. -/
theorem Phrases.ascending {form : Form} : (phrases : Phrases form) → (start : Nat) →
    ((phrases.layout.run start).1.Pairwise fun older younger => older.index < younger.index) ∧
      ∀ id ∈ (phrases.layout.run start).1, start ≤ id.index
  | .nil, start => ⟨.nil, by simp [Phrases.layout]⟩
  | .cons first others, start => by
      have firstBounds := first.bounds start
      obtain ⟨ordered, behind⟩ :=
        others.ascending (start + (first.layout.run start).2.length)
      simp only [Phrases.layout, Layout.run_bind, Layout.run_pure]
      refine ⟨.cons (fun id member => ?_) ordered, fun id member => ?_⟩
      · have behindFirst := behind id member
        omega
      · rcases List.mem_cons.1 member with rfl | among
        · exact firstBounds.1
        · have behindFirst := behind id among
          omega

/-- What a chain begins with is older than what is chained to it. -/
theorem ascending_chain {form itemForm : Form} (left : Phrase form) (items : Phrases itemForm)
    (start : Nat) :
    Ascending (some (left.layout.run start).1 ::
      slots (items.layout.run (start + (left.layout.run start).2.length)).1) := by
  have leftBounds := left.bounds start
  obtain ⟨ordered, behind⟩ := items.ascending (start + (left.layout.run start).2.length)
  refine ⟨(left.layout.run start).1 :: _, rfl, .cons (fun id member => ?_) ordered⟩
  have behindLeft := behind id member
  omega

/-! ### Layouts whose nodes the grammar describes -/

namespace Layout

variable {α β : Type} {look : LookUp} {start : Nat} {layout : Layout α} {result : α → Prop}

/-- In a tree that has the nodes of a layout from `start` on, the result is as said, and the nodes
are such as the grammar describes. -/
def Ensures (look : LookUp) (start : Nat) (layout : Layout α) (result : α → Prop) : Prop :=
  Placed look start (layout.run start).2 →
    result (layout.run start).1 ∧ ∀ node ∈ (layout.run start).2, node.Regular look

namespace Ensures

theorem pure {value : α} (holds : result value) :
    Ensures look start (Pure.pure value) result :=
  fun _ => ⟨holds, by simp⟩

/-- A part, and what follows its result, right behind its nodes. -/
theorem bindAt {next : α → Layout β} {final : β → Prop} (one : Ensures look start layout result)
    (two : result (layout.run start).1 →
      Ensures look (start + (layout.run start).2.length) (next (layout.run start).1) final) :
    Ensures look start (layout >>= next) final := by
  intro placed
  rw [run_bind] at placed ⊢
  obtain ⟨placedFirst, placedNext⟩ := Placed.append_iff.1 placed
  obtain ⟨holds, regular⟩ := one placedFirst
  obtain ⟨holdsFinally, regularNext⟩ := two holds placedNext
  refine ⟨holdsFinally, fun node member => ?_⟩
  rcases List.mem_append.1 member with before | behind
  · exact regular node before
  · exact regularNext node behind

/-- A part, and what follows any such result, wherever that is. -/
theorem bind {next : α → Layout β} {final : β → Prop} (one : Ensures look start layout result)
    (two : ∀ value start, result value → Ensures look start (next value) final) :
    Ensures look start (layout >>= next) final :=
  one.bindAt (two _ _)

theorem map {convert : α → β} {final : β → Prop}
    (ensures : Ensures look start layout fun value => final (convert value)) :
    Ensures look start (convert <$> layout) final := by
  intro placed
  rw [run_map] at placed ⊢
  exact ensures placed

theorem imp {final : α → Prop} (ensures : Ensures look start layout result)
    (weaken : ∀ value, result value → final value) : Ensures look start layout final := by
  intro placed
  obtain ⟨holds, regular⟩ := ensures placed
  exact ⟨weaken _ holds, regular⟩

/-- A node that the grammar describes. -/
theorem emit {node : Node} (regular : node.Regular look) :
    Ensures look start (Layout.emit node) fun id => look id = some node := by
  intro placed
  refine ⟨?_, by simpa using regular⟩
  simpa using placed 0 node

/-- A node that stands for a phrase. -/
theorem shows {form : Form} {node : Node} (regular : node.Regular look)
    (admits : form.admits node = true) :
    Ensures look start (Layout.emit node) fun id => Shows look form (some id) :=
  (emit regular).imp fun _ found => .of_look found admits

end Ensures

end Layout

/-- A name has a part and not too many. -/
theorem NamePath.length_bounds {limit : Nat} (path : NamePath limit) :
    1 ≤ path.parts.length ∧ path.parts.length ≤ limit :=
  ⟨List.length_pos_iff.2 path.parts_ne_nil, path.length_le⟩

open Layout

/-! ### What phrases show -/

/-- The last node of a phrase shows the phrase.  An element to group by shows the column or the
set that it is. -/
abbrev Phrase.Shown {form : Form} (look : LookUp) (phrase : Phrase form) (id : NodeId) : Prop :=
  match form with
  | .groupElement => Shows look (if phrase.isPlainElement then .column else .functionSet) (some id)
  | form => Shows look form (some id)

/-- The last nodes of some phrases show these phrases. -/
abbrev Phrases.Shown {form : Form} (look : LookUp) (phrases : Phrases form) (ids : List NodeId) :
    Prop :=
  match form with
  | .groupElement => ∀ element ∈ (phrases.toList.map Phrase.isPlainElement).zip ids,
      Shows look (if element.1 then .column else .functionSet) (some element.2)
  | form => ∀ id ∈ ids, Shows look form (some id)

/-- If there is a phrase, then its last node shows it. -/
abbrev Perhaps.Shown {form : Form} (look : LookUp) (_ : Perhaps form) (slot : Slot) : Prop :=
  match form with
  | .groupElement => True
  | form => ∀ id, slot = some id → Shows look form (some id)

section Shown

variable {look : LookUp} {form : Form}

theorem Phrases.shown_nil : (Phrases.nil : Phrases form).Shown look [] := by
  cases form <;> exact fun _ absent => absurd absent List.not_mem_nil

theorem Phrases.shown_cons {first : Phrase form} {others : Phrases form} {id : NodeId}
    {ids : List NodeId} (shown : first.Shown look id) (othersShown : others.Shown look ids) :
    (Phrases.cons first others).Shown look (id :: ids) := by
  cases form <;> exact List.forall_mem_cons.2 ⟨shown, othersShown⟩

theorem Perhaps.shown_absent : (Perhaps.absent : Perhaps form).Shown look none := by
  cases form <;> simp [Perhaps.Shown]

theorem Perhaps.shown_present {phrase : Phrase form} {id : NodeId}
    (shown : phrase.Shown look id) : (Perhaps.present phrase).Shown look (some id) := by
  cases form <;> simp_all [Perhaps.Shown, Phrase.Shown]

end Shown

/-! ### Elements to group by -/

section GroupList

variable {look : LookUp} {elements : List (Bool × NodeId)}

theorem columnSets_eq_nil {sets : List NodeId}
    (functions : ∀ set ∈ sets, Shows look .functionSet (some set)) :
    columnSets look (slots sets) = [] := by
  simp only [columnSets, slots, List.filterMap_eq_nil_iff, List.mem_map]
  rintro _ ⟨set, member, rfl⟩
  obtain ⟨_, node, ⟨⟩, found, admits⟩ := functions set member
  obtain ⟨kind, columns, rfl, notColumns⟩ := Form.exists_of_admits_functionSet admits
  rw [Option.bind_some, found]
  cases kind with
  | columns => exact absurd rfl notColumns
  | _ => rfl

/-- The set of the plain columns is the only one of its kind. -/
theorem columnSets_gatherSets {set : NodeId} {columns : List Slot}
    (functions : ∀ set ∈ functionSets elements, Shows look .functionSet (some set))
    (found : look set = some (.element (.groupingSet .columns columns))) :
    columnSets look (slots (gatherSets elements (some set))) = [columns] := by
  let place := (elements.takeWhile (!·.1)).length
  have gathered : slots (gatherSets elements (some set)) =
      slots ((functionSets elements).take place) ++
        (some set :: slots ((functionSets elements).drop place)) := by
    simp [gatherSets, functionSets, slots, place]
  have before : columnSets look (slots ((functionSets elements).take place)) = [] :=
    columnSets_eq_nil fun set member => functions set (List.mem_of_mem_take member)
  have behind : columnSets look (slots ((functionSets elements).drop place)) = [] :=
    columnSets_eq_nil fun set member => functions set (List.mem_of_mem_drop member)
  unfold columnSets at before behind ⊢
  rw [gathered, List.filterMap_append, before, List.filterMap_cons, behind]
  simp [found]

theorem functionSets_ne_nil (nonempty : elements ≠ []) (noColumns : plainColumns elements = []) :
    functionSets elements ≠ [] := by
  cases elements with
  | nil => exact absurd rfl nonempty
  | cons element elements =>
      obtain ⟨isPlain, id⟩ := element
      cases isPlain with
      | true => cases noColumns
      | false => exact List.cons_ne_nil _ _

theorem slots_eq_nil {ids : List NodeId} (none : slots ids = []) : ids = [] :=
  List.map_eq_nil_iff.1 none

/-- Chains have something in their slots. -/
theorem slots_ne_nil {ids : List NodeId} (occupied : ids.isEmpty = false) : slots ids ≠ [] := by
  intro none
  simp [slots_eq_nil none] at occupied

/-- The columns among the elements become one set, and all sets one clause. -/
theorem ensures_groupList {start : Nat} (nonempty : elements ≠ [])
    (shown : ∀ element ∈ elements,
      Shows look (if element.1 then .column else .functionSet) (some element.2)) :
    Ensures look start (do
        let plain := plainColumns elements
        let plainSet ←
          if plain.isEmpty then (pure none : Layout Slot)
          else some <$> Layout.emit (.element (.groupingSet .columns (slots plain)))
        Layout.emit (.element (.groupBy false (slots (gatherSets elements plainSet)))))
      fun id => Shows look .groupBy (some id) := by
  have functions : ∀ set ∈ functionSets elements, Shows look .functionSet (some set) := by
    intro set member
    obtain ⟨⟨isPlain, id⟩, among, rfl⟩ := List.mem_map.1 member
    obtain ⟨isElement, notPlain⟩ := List.mem_filter.1 among
    have elementShown := shown _ isElement
    rw [Bool.not_eq_true'] at notPlain
    rwa [notPlain] at elementShown
  have columns : ∀ column ∈ plainColumns elements, Shows look .column (some column) := by
    intro column member
    obtain ⟨⟨isPlain, id⟩, among, rfl⟩ := List.mem_map.1 member
    obtain ⟨isElement, plain⟩ := List.mem_filter.1 among
    have elementShown := shown _ isElement
    rwa [plain] at elementShown
  have functionGroups : ∀ set ∈ functionSets elements, Shows look .groupingSet (some set) :=
    fun set member => (functions set member).imp fun _ => Form.admits_groupingSet_of_functionSet
  dsimp only
  split
  · next isEmpty =>
      have vacant := List.isEmpty_iff.1 isEmpty
      have absent : Ensures look start (pure none : Layout Slot) (· = none) := .pure rfl
      apply absent.bind
      rintro _ start rfl
      rw [gatherSets_none]
      refine .shows ⟨ShowsAll.slots_iff.2 functionGroups, ⟨?_, fun _ => ?_⟩, trivial⟩ rfl
      · exact fun none => functionSets_ne_nil nonempty vacant (slots_eq_nil none)
      · rw [columnSets_eq_nil functions]
        simp
  · next notEmpty =>
      let set : Node := .element (.groupingSet .columns (slots (plainColumns elements)))
      have regular : set.Regular look :=
        ⟨ShowsAll.slots_iff.2 columns, fun noColumns => absurd rfl noColumns, trivial⟩
      have added : Ensures look start (some <$> Layout.emit set) fun slot =>
          ∃ id, slot = some id ∧ look id = some set :=
        .map ((Ensures.emit regular).imp fun id found => ⟨id, rfl, found⟩)
      apply added.bind
      rintro _ start ⟨id, rfl, found⟩
      have gathered (other : NodeId) : other ∈ gatherSets elements (some id) ↔
          other ∈ functionSets elements ∨ other = id := by
        rw [(gatherSets_some_perm elements id).mem_iff, List.mem_append, List.mem_singleton]
      refine .shows ⟨ShowsAll.slots_iff.2 fun other member => ?_, ⟨?_, fun _ => ?_⟩, trivial⟩ rfl
      · rcases (gathered other).1 member with function | rfl
        · exact functionGroups other function
        · exact .of_look found rfl
      · intro none
        have among := (gathered id).2 (.inr rfl)
        rw [slots_eq_nil none] at among
        cases among
      · rw [columnSets_gatherSets functions found]
        have occupied : slots (plainColumns elements) ≠ [] := by
          intro none
          simp [slots_eq_nil none] at notEmpty
        simpa using occupied.symm

end GroupList

/-! ### All phrases -/

section Phrases

variable {look : LookUp}

/-- What is there alone, or a node over it and what follows. -/
theorem Layout.ensures_unless {start : Nat} {form : Form} {id : NodeId} {node : Node}
    {vacant : Bool} (alone : Shows look form (some id))
    (regular : vacant = false → node.Regular look) (admits : form.admits node = true) :
    Ensures look start (if vacant then (pure id : Layout NodeId) else Layout.emit node)
      fun id => Shows look form (some id) := by
  cases vacant with
  | true => exact .pure alone
  | false => exact .shows (regular rfl) admits

theorem slots_cons (id : NodeId) (ids : List NodeId) : slots (id :: ids) = some id :: slots ids :=
  rfl

theorem slots_cons_ne_nil (id : NodeId) (ids : List NodeId) : slots (id :: ids) ≠ [] :=
  List.cons_ne_nil _ _

/-- What holds of the first and of each other child holds of all slots. -/
theorem holds_slots_cons {such : Node → Prop} {id : NodeId} {ids : List NodeId}
    (first : Holds look (some id) such) (others : ∀ id ∈ ids, Holds look (some id) such) :
    ∀ slot ∈ slots (id :: ids), Holds look slot such :=
  List.forall_mem_cons.2 ⟨first, List.forall_mem_map.2 others⟩

/-- Texts that are not empty. -/
theorem empty_not_mem_texts (texts : List Verbatim) : "" ∉ texts.map Verbatim.text := by
  intro member
  obtain ⟨text, -, isEmpty⟩ := List.mem_map.1 member
  exact text.text_ne_empty isEmpty

attribute [local simp] Node.expects slots_cons

/-- The bracketed statement of a comparison is found under its own number. -/
theorem Layout.Ensures.subselect {start : Nat} {statement : NodeId}
    (shown : Shows look .statement (some statement)) :
    Ensures look start (Layout.emit (.column (.subselect (some statement)))) fun id =>
      look id = some (.column (.subselect (some statement))) :=
  .emit ⟨by simpa using shown, trivial, trivial⟩

/-- The nodes of a phrase are such as the grammar describes, and the last of them shows the
phrase. -/
def Phrase.Ensured {form : Form} (look : LookUp) (phrase : Phrase form) : Prop :=
  ∀ start, Ensures look start phrase.layout (phrase.Shown look)

/-- The same for a phrase that may be missing. -/
def Perhaps.Ensured {form : Form} (look : LookUp) (perhaps : Perhaps form) : Prop :=
  ∀ start, Ensures look start perhaps.layout (perhaps.Shown look)

/-- The same for phrases behind one another. -/
def Phrases.Ensured {form : Form} (look : LookUp) (phrases : Phrases form) : Prop :=
  ∀ start, Ensures look start phrases.layout (phrases.Shown look)

/-! ### Longer phrases -/

/-- The type of a conversion is not empty. -/
theorem ensured_convert {lenient : Bool} {type : Verbatim} {value : Phrase .column}
    {style : Perhaps .column} (ensured : value.Ensured look) (styleEnsured : style.Ensured look) :
    (Phrase.convert lenient type value style).Ensured look := fun start =>
  (ensured start).bind fun _ start shown => (styleEnsured start).bind fun _ _ styleShown =>
    .shows ⟨by simpa using ⟨shown, styleShown⟩, type.text_ne_empty, trivial⟩ rfl

theorem ensured_parse {lenient : Bool} {value : Phrase .column} {type : Verbatim}
    {culture : Perhaps .column} (ensured : value.Ensured look)
    (cultureEnsured : culture.Ensured look) :
    (Phrase.parse lenient value type culture).Ensured look := fun start =>
  (ensured start).bind fun _ start shown => (cultureEnsured start).bind fun _ _ cultureShown =>
    .shows ⟨by simpa using ⟨shown, cultureShown⟩, type.text_ne_empty, trivial⟩ rfl

/-- The three arguments fill their slots. -/
theorem ensured_iif {condition : Phrase .condition} {value otherwise : Phrase .column}
    (conditionEnsured : condition.Ensured look) (ensured : value.Ensured look)
    (otherwiseEnsured : otherwise.Ensured look) :
    (Phrase.iif condition value otherwise).Ensured look := fun start =>
  (conditionEnsured start).bind fun _ start conditionShown =>
  (ensured start).bind fun _ start shown =>
  (otherwiseEnsured start).bind fun _ _ otherwiseShown =>
    .shows ⟨by simpa using ⟨conditionShown, shown, otherwiseShown⟩, trivial, trivial⟩ rfl

/-- All branches have conditions. -/
theorem ensured_searchedCase {first : Phrase .searchedBranch} {others : Phrases .searchedBranch}
    {otherwise : Perhaps .column} (ensured : first.Ensured look)
    (othersEnsured : others.Ensured look) (otherwiseEnsured : otherwise.Ensured look) :
    (Phrase.searchedCase first others otherwise).Ensured look := fun start =>
  (ensured start).bind fun first start firstShown =>
  (othersEnsured start).bind fun others start othersShown =>
  (otherwiseEnsured start).bind fun _ _ otherwiseShown => by
    have branches : ∀ branch ∈ slots (first :: others), Holds look branch (Node.IsBranch false) :=
      holds_slots_cons (firstShown.imp fun _ => Form.isBranch_of_admits_searchedBranch)
        fun id member =>
          (othersShown id member).imp fun _ => Form.isBranch_of_admits_searchedBranch
    refine .shows ⟨?_, ⟨slots_cons_ne_nil _ _, branches⟩, trivial⟩ rfl
    simpa using ⟨firstShown, othersShown, otherwiseShown⟩

/-- All branches have values to compare the operand with. -/
theorem ensured_simpleCase {operand : Phrase .column} {first : Phrase .simpleBranch}
    {others : Phrases .simpleBranch} {otherwise : Perhaps .column}
    (operandEnsured : operand.Ensured look) (ensured : first.Ensured look)
    (othersEnsured : others.Ensured look) (otherwiseEnsured : otherwise.Ensured look) :
    (Phrase.simpleCase operand first others otherwise).Ensured look := fun start =>
  (operandEnsured start).bind fun _ start operandShown =>
  (ensured start).bind fun first start firstShown =>
  (othersEnsured start).bind fun others start othersShown =>
  (otherwiseEnsured start).bind fun _ _ otherwiseShown => by
    have branches : ∀ branch ∈ slots (first :: others), Holds look branch (Node.IsBranch true) :=
      holds_slots_cons (firstShown.imp fun _ => Form.isBranch_of_admits_simpleBranch)
        fun id member =>
          (othersShown id member).imp fun _ => Form.isBranch_of_admits_simpleBranch
    refine .shows ⟨?_, ⟨slots_cons_ne_nil _ _, branches⟩, trivial⟩ rfl
    simpa using ⟨operandShown, firstShown, othersShown, otherwiseShown⟩

/-- A window over the node of a run, which has no window itself. -/
theorem ensures_windowed {window : Perhaps .window} (ensured : window.Ensured look) {run : NodeId}
    {start : Nat} (runShown : Shows look .column (some run))
    (noWindow : Holds look (some run) fun node => node.kind ≠ .overColumn) :
    Ensures look start (do
        let window ← window.layout
        if window.isNone then (pure run : Layout NodeId)
        else Layout.emit (.column (.windowed (some run) window)))
      fun id => Shows look .column (some id) := by
  apply (ensured start).bind
  intro window start windowShown
  apply ensures_unless runShown ?_ rfl
  intro present
  obtain ⟨id, rfl⟩ := Option.isNone_eq_false_iff.1 present |> Option.isSome_iff_exists.1
  exact ⟨by simpa using ⟨runShown, windowShown id rfl⟩, trivial, noWindow⟩

/-- A run has at least one operation, and a window is never over another one. -/
theorem ensured_column {left : Phrase .operand} {operations : Phrases .operation}
    {window : Perhaps .window} (ensured : left.Ensured look)
    (operationsEnsured : operations.Ensured look) (windowEnsured : window.Ensured look) :
    (Phrase.column left operations window).Ensured look := by
  intro start
  apply (ensured start).bindAt
  intro leftShown
  apply (operationsEnsured _).bindAt
  intro operationsShown
  have leftColumn := leftShown.imp fun _ => Form.admits_column_of_operand
  split
  · exact ensures_windowed windowEnsured leftColumn (leftShown.imp fun _ admits isOver =>
      Form.kind_of_admits_operand admits (by simp [isOver]))
  · next notEmpty =>
      let run : Node := .column (.arithmetic (some (left.layout.run start).1) (slots
        (operations.layout.run (start + (left.layout.run start).2.length)).1))
      have regular : run.Regular look :=
        ⟨by simpa [run] using ⟨leftShown, operationsShown⟩, trivial,
          slots_ne_nil (by simpa using notEmpty), ascending_chain left operations start⟩
      exact (Ensures.emit regular).bind fun id start found =>
        ensures_windowed windowEnsured (.of_look found rfl) (.of_look found nofun)

/-- A chain has at least one link, and its parts are in order. -/
theorem ensured_condition {left : Phrase .term} {links : Phrases .link}
    (ensured : left.Ensured look) (linksEnsured : links.Ensured look) :
    (Phrase.condition left links).Ensured look := fun start =>
  (ensured start).bindAt fun leftShown => (linksEnsured _).bindAt fun linksShown =>
    ensures_unless (leftShown.imp fun _ => Form.admits_condition_of_term)
      (fun occupied => ⟨by simpa using ⟨leftShown, linksShown⟩, trivial,
        slots_ne_nil occupied, ascending_chain left links start⟩)
      rfl

/-- The operator is one that compares, and the right side is the statement in brackets. -/
theorem ensured_setComparison {left : Phrase .column} {operator : OrderOperator}
    {quantity : Quantifier} {statement : Phrase .statement} (ensured : left.Ensured look)
    (statementEnsured : statement.Ensured look) :
    (Phrase.setComparison left operator quantity statement).Ensured look := fun start =>
  (ensured start).bind fun _ start leftShown =>
  (statementEnsured start).bind fun _ start statementShown =>
  (Ensures.subselect statementShown).bind fun right _ rightFound => by
    have rightShown : Shows look .operand (some right) := .of_look rightFound rfl
    refine .shows ⟨by simpa using ⟨leftShown, rightShown⟩, ⟨?_, ?_, ?_⟩, trivial⟩ rfl
    · cases operator <;> exact nofun
    · cases operator <;> exact nofun
    · exact .of_look rightFound rfl

/-- There is at least one value. -/
theorem ensured_inList {column first : Phrase .column} {negated : Bool}
    {others : Phrases .column} (ensured : column.Ensured look)
    (firstEnsured : first.Ensured look) (othersEnsured : others.Ensured look) :
    (Phrase.inList column negated first others).Ensured look := fun start =>
  (ensured start).bind fun _ start shown =>
  (firstEnsured start).bind fun _ start firstShown =>
  (othersEnsured start).bind fun _ _ othersShown =>
    .shows ⟨by simpa using ⟨shown, firstShown, othersShown⟩, slots_cons_ne_nil _ _, trivial⟩ rfl

theorem ensured_between {column lower upper : Phrase .column} {negated : Bool}
    (ensured : column.Ensured look) (lowerEnsured : lower.Ensured look)
    (upperEnsured : upper.Ensured look) :
    (Phrase.between column negated lower upper).Ensured look := fun start =>
  (ensured start).bind fun _ start shown =>
  (lowerEnsured start).bind fun _ start lowerShown =>
  (upperEnsured start).bind fun _ _ upperShown =>
    .shows ⟨by simpa using ⟨shown, lowerShown, upperShown⟩, trivial, trivial⟩ rfl

/-- A chain has at least one join, and its parts are in order. -/
theorem ensured_relation {left : Phrase .source} {joins : Phrases .join}
    (ensured : left.Ensured look) (joinsEnsured : joins.Ensured look) :
    (Phrase.relation left joins).Ensured look := fun start =>
  (ensured start).bindAt fun leftShown => (joinsEnsured _).bindAt fun joinsShown =>
    ensures_unless (leftShown.imp fun _ => Form.admits_relation_of_source)
      (fun occupied => ⟨by simpa using ⟨leftShown, joinsShown⟩, trivial,
        slots_ne_nil occupied, ascending_chain left joins start⟩)
      rfl

/-- Only a column with an alias is a node of its own. -/
theorem ensured_selectColumn {column : Phrase .column} {called : Option Identifier}
    (ensured : column.Ensured look) : (Phrase.selectColumn column called).Ensured look := by
  intro start
  refine (ensured start).bind fun _ _ shown => ?_
  cases called with
  | none => exact .pure (shown.imp fun _ => Form.admits_selectColumn_of_column)
  | some called => exact .shows ⟨by simpa using shown, trivial, trivial⟩ rfl

/-- A pivot has at least one value. -/
theorem ensured_pivot {aggregation pivotColumn first : Phrase .column}
    {others : Phrases .column} {called : Identifier} (aggregationEnsured : aggregation.Ensured look)
    (columnEnsured : pivotColumn.Ensured look) (ensured : first.Ensured look)
    (othersEnsured : others.Ensured look) :
    (Phrase.pivot aggregation pivotColumn first others called).Ensured look := fun start =>
  (aggregationEnsured start).bind fun _ start aggregationShown =>
  (columnEnsured start).bind fun _ start columnShown =>
  (ensured start).bind fun _ start firstShown =>
  (othersEnsured start).bind fun _ _ othersShown =>
    .shows ⟨by simpa using ⟨aggregationShown, columnShown, firstShown, othersShown⟩,
      slots_cons_ne_nil _ _, trivial⟩ rfl

/-- There is at least one element, so the list is not empty when it is gathered. -/
theorem ensured_groupList {first : Phrase .groupElement} {others : Phrases .groupElement}
    (ensured : first.Ensured look) (othersEnsured : others.Ensured look) :
    (Phrase.groupList first others).Ensured look := fun start =>
  (ensured start).bind fun _ start firstShown =>
  (othersEnsured start).bind fun _ _ othersShown =>
    ensures_groupList (List.cons_ne_nil _ _) (List.forall_mem_cons.2 ⟨firstShown, othersShown⟩)

/-- There is at least one item. -/
theorem ensured_orderBy {first : Phrase .orderItem} {others : Phrases .orderItem}
    {offset fetch : Perhaps .column} (ensured : first.Ensured look)
    (othersEnsured : others.Ensured look) (offsetEnsured : offset.Ensured look)
    (fetchEnsured : fetch.Ensured look) :
    (Phrase.orderBy first others offset fetch).Ensured look := fun start =>
  (ensured start).bind fun _ start firstShown =>
  (othersEnsured start).bind fun _ start othersShown =>
  (offsetEnsured start).bind fun _ start offsetShown =>
  (fetchEnsured start).bind fun _ _ fetchShown =>
    .shows ⟨by simpa using ⟨firstShown, othersShown, offsetShown, fetchShown⟩,
      slots_cons_ne_nil _ _, trivial⟩ rfl

/-- There is at least one column; a block behind a set operator keeps the operator. -/
theorem ensured_block {chained : Bool} {link : Connective chained} {top : Perhaps .top}
    {distinct : Bool} {first : Phrase .selectColumn} {others : Phrases .selectColumn}
    {sources : Phrases .relation} {pivot : Perhaps .pivot} {filter : Perhaps .condition}
    {groupBy : Perhaps .groupBy} {having : Perhaps .condition} (topEnsured : top.Ensured look)
    (ensured : first.Ensured look) (othersEnsured : others.Ensured look)
    (sourcesEnsured : sources.Ensured look) (pivotEnsured : pivot.Ensured look)
    (filterEnsured : filter.Ensured look) (groupByEnsured : groupBy.Ensured look)
    (havingEnsured : having.Ensured look) :
    (Phrase.block link top distinct first others sources pivot filter groupBy having).Ensured
      look := fun start =>
  (topEnsured start).bind fun _ start topShown =>
  (ensured start).bind fun _ start firstShown =>
  (othersEnsured start).bind fun _ start othersShown =>
  (sourcesEnsured start).bind fun _ start sourcesShown =>
  (pivotEnsured start).bind fun _ start pivotShown =>
  (filterEnsured start).bind fun _ start filterShown =>
  (groupByEnsured start).bind fun _ start groupByShown =>
  (havingEnsured start).bind fun _ _ havingShown => by
    refine .shows ⟨?_, slots_cons_ne_nil _ _, trivial⟩ (by cases link <;> rfl)
    simpa using ⟨topShown, firstShown, othersShown, sourcesShown, pivotShown, filterShown,
      groupByShown, havingShown⟩

/-- The parts of the body are blocks. -/
theorem ensured_statement {ctes : Phrases .cte} {first : Phrase (.block false)}
    {others : Phrases (.block true)} {orderBy : Perhaps .orderBy} {options : Perhaps .optionHints}
    (ctesEnsured : ctes.Ensured look) (ensured : first.Ensured look)
    (othersEnsured : others.Ensured look) (orderByEnsured : orderBy.Ensured look)
    (optionsEnsured : options.Ensured look) :
    (Phrase.statement ctes first others orderBy options).Ensured look := fun start =>
  (ctesEnsured start).bind fun _ start ctesShown =>
  (ensured start).bind fun first start firstShown =>
  (othersEnsured start).bind fun others start othersShown =>
  (orderByEnsured start).bind fun _ start orderByShown =>
  (optionsEnsured start).bind fun _ _ optionsShown => by
    refine .shows ⟨?_, ⟨some first, slots others, rfl, ?_, ?_⟩, trivial⟩ rfl
    · simpa using ⟨ctesShown, firstShown, othersShown, orderByShown, optionsShown⟩
    · exact firstShown.imp fun _ => Form.isBlock_of_admits_block
    · exact List.forall_mem_map.2 fun id member =>
        (othersShown id member).imp fun _ => Form.isBlock_of_admits_block

/-! ### All phrases -/

mutual

/-- The nodes of a phrase are such as the grammar describes, and the last of them shows the
phrase. -/
theorem Phrase.ensures : {form : Form} → (phrase : Phrase form) → phrase.Ensured look
  | _, .literal value => fun _ => .shows ⟨by simp, trivial, trivial⟩ rfl
  | _, .null => fun _ => .shows ⟨by simp, trivial, trivial⟩ rfl
  | _, .star table => fun _ => .shows ⟨by simp, trivial, trivial⟩ rfl
  | _, .variable name => fun _ => .shows ⟨by simp, trivial, trivial⟩ rfl
  | _, .reference table name => fun _ => .shows ⟨by simp, trivial, trivial⟩ rfl
  | _, .function name arguments => fun start =>
      (arguments.ensures start).bind fun _ _ shown =>
        .shows ⟨by simpa using shown, name.length_bounds, trivial⟩ rfl
  | _, .aggregation function distinct first others => fun start =>
      (first.ensures start).bind fun _ start firstShown =>
      (others.ensures start).bind fun _ _ othersShown =>
        .shows ⟨by simpa using ⟨firstShown, othersShown⟩, slots_cons_ne_nil _ _, trivial⟩ rfl
  | _, .cast lenient value type => fun start =>
      (value.ensures start).bind fun _ _ shown =>
        .shows ⟨by simpa using shown, type.text_ne_empty, trivial⟩ rfl
  | _, .convert _ _ value style => ensured_convert value.ensures style.ensures
  | _, .parse _ value _ culture => ensured_parse value.ensures culture.ensures
  | _, .iif condition value otherwise =>
      ensured_iif condition.ensures value.ensures otherwise.ensures
  | _, .searchedCase first others otherwise =>
      ensured_searchedCase first.ensures others.ensures otherwise.ensures
  | _, .simpleCase operand first others otherwise =>
      ensured_simpleCase operand.ensures first.ensures others.ensures otherwise.ensures
  | _, .bracketedColumn inner => fun start =>
      (inner.ensures start).bind fun _ _ shown =>
        .shows ⟨by simpa using shown, trivial, trivial⟩ rfl
  | _, .subselect statement => fun start =>
      (statement.ensures start).bind fun _ _ shown =>
        .shows ⟨by simpa using shown, trivial, trivial⟩ rfl
  | _, .negated operand => fun start =>
      (operand.ensures start).bind fun _ _ shown =>
        .shows ⟨by simpa using shown, trivial, trivial⟩ rfl
  | _, .column left operations window =>
      ensured_column left.ensures operations.ensures window.ensures
  | _, .operation operator operand => fun start =>
      (operand.ensures start).bind fun _ _ shown =>
        .shows ⟨by simpa using shown, trivial, trivial⟩ rfl
  | _, .searchedBranch condition result => fun start =>
      (condition.ensures start).bind fun _ start conditionShown =>
      (result.ensures start).bind fun _ _ resultShown =>
        .shows ⟨by simpa using ⟨conditionShown, resultShown⟩, trivial, trivial⟩ rfl
  | _, .simpleBranch value result => fun start =>
      (value.ensures start).bind fun _ start valueShown =>
      (result.ensures start).bind fun _ _ resultShown =>
        .shows ⟨by simpa using ⟨valueShown, resultShown⟩, trivial, trivial⟩ rfl
  | _, .window partitionBy orderBy frame => fun start =>
      (partitionBy.ensures start).bind fun _ start partitionShown =>
      (orderBy.ensures start).bind fun _ _ orderShown =>
        .shows ⟨by simpa using ⟨partitionShown, orderShown⟩, trivial, trivial⟩ rfl
  | _, .orderItem column collation direction => fun start =>
      (column.ensures start).bind fun _ _ shown =>
        .shows ⟨by simpa using shown, trivial, trivial⟩ rfl
  | _, .condition left links => ensured_condition left.ensures links.ensures
  | _, .link operator term => fun start =>
      (term.ensures start).bind fun _ _ shown =>
        .shows ⟨by simpa using shown, trivial, trivial⟩ rfl
  | _, .comparison left operator right => fun start =>
      (left.ensures start).bind fun _ start leftShown =>
      (right.ensures start).bind fun _ _ rightShown =>
        .shows ⟨by simpa using ⟨leftShown, rightShown⟩, trivial, trivial⟩ rfl
  | _, .like left negated right => fun start =>
      (left.ensures start).bind fun _ start leftShown =>
      (right.ensures start).bind fun _ _ rightShown =>
        .shows ⟨by simpa using ⟨leftShown, rightShown⟩, trivial, trivial⟩ rfl
  | _, .setComparison left _ _ statement => ensured_setComparison left.ensures statement.ensures
  | _, .inList column _ first others =>
      ensured_inList column.ensures first.ensures others.ensures
  | _, .inSelect column negated statement => fun start =>
      (column.ensures start).bind fun _ start columnShown =>
      (statement.ensures start).bind fun _ _ statementShown =>
        .shows ⟨by simpa using ⟨columnShown, statementShown⟩, trivial, trivial⟩ rfl
  | _, .between column _ lower upper =>
      ensured_between column.ensures lower.ensures upper.ensures
  | _, .isNull column negated => fun start =>
      (column.ensures start).bind fun _ _ shown =>
        .shows ⟨by simpa using shown, trivial, trivial⟩ rfl
  | _, .exists statement => fun start =>
      (statement.ensures start).bind fun _ _ shown =>
        .shows ⟨by simpa using shown, trivial, trivial⟩ rfl
  | _, .not term => fun start =>
      (term.ensures start).bind fun _ _ shown =>
        .shows ⟨by simpa using shown, trivial, trivial⟩ rfl
  | _, .bracketedCondition inner => fun start =>
      (inner.ensures start).bind fun _ _ shown =>
        .shows ⟨by simpa using shown, trivial, trivial⟩ rfl
  | _, .relation left joins => ensured_relation left.ensures joins.ensures
  | _, .joinOn type requires source condition => fun start =>
      (source.ensures start).bind fun _ start sourceShown =>
      (condition.ensures start).bind fun _ _ conditionShown =>
        .shows ⟨by simpa using ⟨sourceShown, conditionShown⟩, requires.symm, trivial⟩ rfl
  | _, .joinFree type free source => fun start =>
      (source.ensures start).bind fun _ _ shown =>
        .shows ⟨by simpa using shown, free.symm, trivial⟩ rfl
  | _, .table name called => fun _ => .shows ⟨by simp, name.length_bounds, trivial⟩ rfl
  | _, .bracketedRelation inner => fun start =>
      (inner.ensures start).bind fun _ _ shown =>
        .shows ⟨by simpa using shown, trivial, trivial⟩ rfl
  | _, .derived statement called => fun start =>
      (statement.ensures start).bind fun _ _ shown =>
        .shows ⟨by simpa using shown, trivial, trivial⟩ rfl
  | _, .selectColumn column _ => ensured_selectColumn column.ensures
  | _, .top count percent withTies => fun start =>
      (count.ensures start).bind fun _ _ shown =>
        .shows ⟨by simpa using shown, trivial, trivial⟩ rfl
  | _, .pivot aggregation pivotColumn first others _ =>
      ensured_pivot aggregation.ensures pivotColumn.ensures first.ensures others.ensures
  | _, .groupingSets first others => fun start =>
      (first.ensures start).bind fun _ start firstShown =>
      (others.ensures start).bind fun _ _ othersShown =>
        .shows ⟨by simpa using ⟨firstShown, othersShown⟩, ⟨slots_cons_ne_nil _ _, nofun⟩,
          trivial⟩ rfl
  | _, .groupList first others => ensured_groupList first.ensures others.ensures
  | _, .columnSet columns => fun start =>
      (columns.ensures start).bind fun _ _ shown =>
        .shows ⟨by simpa using shown, fun noColumns => absurd rfl noColumns, trivial⟩ rfl
  | _, .functionSet function first others => fun start =>
      (first.ensures start).bind fun _ start firstShown =>
      (others.ensures start).bind fun _ _ othersShown =>
        .shows ⟨by simpa using ⟨firstShown, othersShown⟩, fun _ => slots_cons_ne_nil _ _, trivial⟩
          (by cases function <;> rfl)
  | _, .functionGroup set => fun start =>
      (set.ensures start).imp fun _ shown =>
        shown.imp fun _ => Form.admits_groupingSet_of_functionSet
  | _, .plainElement column => column.ensures
  | _, .functionElement set => set.ensures
  | _, .orderBy first others offset fetch =>
      ensured_orderBy first.ensures others.ensures offset.ensures fetch.ensures
  | _, .optionHints first others => fun _ =>
      .shows ⟨by simp, ⟨List.cons_ne_nil _ _, empty_not_mem_texts (first :: others)⟩, trivial⟩ rfl
  | _, .block _ top _ first others sources pivot filter groupBy having =>
      ensured_block top.ensures first.ensures others.ensures sources.ensures pivot.ensures
        filter.ensures groupBy.ensures having.ensures
  | _, .cte name columns statement => fun start =>
      (statement.ensures start).bind fun _ _ shown =>
        .shows ⟨by simpa using shown, trivial, trivial⟩ rfl
  | _, .statement ctes first others orderBy options =>
      ensured_statement ctes.ensures first.ensures others.ensures orderBy.ensures options.ensures

/-- The nodes of a phrase that may be missing. -/
theorem Perhaps.ensures : {form : Form} → (perhaps : Perhaps form) → perhaps.Ensured look
  | _, .absent => fun _ => .pure Perhaps.shown_absent
  | _, .present phrase => fun start =>
      (phrase.ensures start).bind fun _ _ shown => .pure (Perhaps.shown_present shown)

/-- The nodes of the phrases of a list. -/
theorem Phrases.ensures : {form : Form} → (phrases : Phrases form) → phrases.Ensured look
  | _, .nil => fun _ => .pure Phrases.shown_nil
  | _, .cons first others => fun start =>
      (first.ensures start).bind fun _ start shown =>
      (others.ensures start).bind fun _ _ othersShown =>
        .pure (Phrases.shown_cons shown othersShown)

end

end Phrases

end SelectTree
