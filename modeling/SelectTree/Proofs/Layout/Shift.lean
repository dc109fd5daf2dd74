/-
Module: SelectTree.Proofs.Layout.Shift
Purpose: where the nodes of a phrase begin decides their numbers and nothing else.
Main exports: NodeId.shift, Node.shift, Layout.Moves, Phrase.moves
-/
import SelectTree.Layout
import SelectTree.Proofs.Node.Rename
import SelectTree.Proofs.Node.Typed

namespace SelectTree

/-- The number so many places further. -/
def NodeId.shift (distance : Nat) (id : NodeId) : NodeId :=
  { index := id.index + distance }

/-- The contents of a field with all children so many places further. -/
def FieldValue.shift (distance : Nat) : FieldValue → FieldValue
  | .child slot => .child (slot.map (NodeId.shift distance))
  | .children slots => .children (slots.map (Option.map (NodeId.shift distance)))
  | value => value

/-- The node with all children so many places further. -/
def Node.shift (distance : Nat) (node : Node) : Node :=
  node.withValues (node.values.map (FieldValue.shift distance))

/-! ### What shifting keeps -/

section Shift

variable (distance : Nat)

/-- Shifting changes numbers of children and no kind of contents. -/
theorem FieldType.holds_shift (type : FieldType) (value : FieldValue) :
    type.holds (value.shift distance) = type.holds value := by
  cases value <;> cases type <;> rfl

/-- Shifting is a renaming of children, so that all about renaming applies to it. -/
theorem FieldValue.shift_eq_rename :
    FieldValue.shift distance = FieldValue.rename (NodeId.shift distance) := by
  funext value
  cases value <;> rfl

/-- The shifted contents are contents that the node may have. -/
theorem Node.typed_shift (node : Node) :
    Typed node.fields (node.values.map (FieldValue.shift distance)) := by
  have typed := node.values_typed
  unfold Typed at typed ⊢
  rw [List.forall₂_map_right_iff]
  exact typed.imp fun field value holds => by rwa [field.type.holds_shift]

theorem Node.values_shift (node : Node) :
    (node.shift distance).values = node.values.map (FieldValue.shift distance) :=
  values_withValues (node.typed_shift distance)

theorem Node.childIds_shift (node : Node) :
    (node.shift distance).childIds = node.childIds.map (NodeId.shift distance) :=
  childIds_of_rename (by rw [values_shift, FieldValue.shift_eq_rename])

/-- The kind and the shifted contents determine the shifted node. -/
theorem Node.shift_eq {node moved : Node} (sameKind : node.kind = moved.kind)
    (sameValues : node.values.map (FieldValue.shift distance) = moved.values) :
    node.shift distance = moved := by
  rw [shift, withValues, sameKind, sameValues, ofValues?_values]
  rfl

end Shift

@[simp] theorem NodeId.shift_zero : NodeId.shift 0 = id :=
  funext fun _ => rfl

theorem FieldValue.shift_zero (value : FieldValue) : value.shift 0 = value := by
  cases value <;> simp [shift]

@[simp] theorem Node.shift_zero : Node.shift 0 = id := by
  funext node
  apply node.shift_eq 0 rfl
  rw [funext FieldValue.shift_zero, List.map_id']

/-! ### Layouts -/

namespace Layout

variable {α β : Type} {distance : Nat}

/-- The second layout adds, so many places further, what the first layout adds. -/
def Moves (distance : Nat) (convert : α → α) (layout moved : Layout α) : Prop :=
  ∀ start, moved.run (start + distance) =
    (convert (layout.run start).1, (layout.run start).2.map (Node.shift distance))

namespace Moves

/-- A layout without nodes moves if its value does. -/
theorem pure {convert : α → α} {value value' : α} (same : convert value = value') :
    Moves distance convert (Pure.pure value) (Pure.pure value') := by
  intro start
  simp [same]

/-- Layouts move one behind the other if the second one moves along with the value of the first. -/
theorem bind {convert : α → α} {convert' : β → β} {first first' : Layout α}
    {next next' : α → Layout β} (one : Moves distance convert first first')
    (two : ∀ value, Moves distance convert' (next value) (next' (convert value))) :
    Moves distance convert' (first >>= next) (first' >>= next') := by
  intro start
  have second := two (first.run start).1 (start + (first.run start).2.length)
  rw [Nat.add_right_comm] at second
  simp [one start, second]

theorem map {convert : α → α} {convert' : β → β} {name : α → β} {layout moved : Layout α}
    (moves : Moves distance convert layout moved)
    (named : ∀ value, convert' (name value) = name (convert value)) :
    Moves distance convert' (name <$> layout) (name <$> moved) := by
  intro start
  simp [moves start, named]

/-- A node moves if its children are converted as its number is. -/
theorem emit {node moved : Node} (sameKind : node.kind = moved.kind)
    (sameValues : node.values.map (FieldValue.shift distance) = moved.values) :
    Moves distance (NodeId.shift distance) (Layout.emit node) (Layout.emit moved) := by
  intro start
  simp [node.shift_eq distance sameKind sameValues, NodeId.shift]

end Moves

end Layout

open Layout

attribute [local simp] Node.values FieldValue.shift slots

/-! ### Elements to group by -/

/-- Which sets are gathered does not depend on their numbers. -/
theorem gatherSets_map (convert : NodeId → NodeId) (elements : List (Bool × NodeId))
    (plainSet : Option NodeId) :
    gatherSets (elements.map (Prod.map id convert)) (plainSet.map convert) =
      (gatherSets elements plainSet).map convert := by
  cases plainSet <;>
    simp [gatherSets, List.filter_map, List.takeWhile_map, Function.comp_def, List.map_take,
      List.map_drop]

/-- The columns among the elements become one set, and all sets one clause. -/
theorem moves_groupList (distance : Nat) (elements : List (Bool × NodeId)) :
    let clause (elements : List (Bool × NodeId)) : Layout NodeId := do
      let plain := (elements.filter (·.1)).map Prod.snd
      let plainSet ←
        if plain.isEmpty then pure none
        else some <$> emit (.element (.groupingSet .columns (slots plain)))
      emit (.element (.groupBy false (slots (gatherSets elements plainSet))))
    Moves distance (NodeId.shift distance) (clause elements)
      (clause (elements.map (Prod.map id (NodeId.shift distance)))) := by
  have closed (plainSet : Option NodeId) :
      Moves distance (NodeId.shift distance)
        (emit (.element (.groupBy false (slots (gatherSets elements plainSet)))))
        (emit (.element (.groupBy false (slots (gatherSets
          (elements.map (Prod.map id (NodeId.shift distance)))
          (plainSet.map (NodeId.shift distance))))))) :=
    .emit rfl (by simp [gatherSets_map])
  have plain : ((elements.map (Prod.map id (NodeId.shift distance))).filter (·.1)).map Prod.snd =
      ((elements.filter (·.1)).map Prod.snd).map (NodeId.shift distance) := by
    simp [List.filter_map, Function.comp_def]
  intro clause
  dsimp only [clause]
  rw [plain]
  cases (elements.filter (·.1)).map Prod.snd with
  | nil => exact closed none
  | cons column columns =>
      refine .bind (.map ?_ fun _ => rfl) closed
      exact .emit rfl (by simp)

section

variable (distance : Nat)

mutual

/-- The nodes of a phrase that begins further behind are the same nodes, with all children as much
further behind. -/
theorem Phrase.moves : {form : Form} → (phrase : Phrase form) →
    Moves distance (NodeId.shift distance) phrase.layout phrase.layout
  | _, .literal value => .emit rfl rfl
  | _, .null => .emit rfl rfl
  | _, .star table => .emit rfl rfl
  | _, .variable name => .emit rfl rfl
  | _, .reference table name => .emit rfl rfl
  | _, .function name arguments => arguments.moves.bind fun _ => .emit rfl (by simp)
  | _, .aggregation function distinct first others =>
      first.moves.bind fun _ => others.moves.bind fun _ => .emit rfl (by simp)
  | _, .cast lenient value type => value.moves.bind fun _ => .emit rfl rfl
  | _, .convert lenient type value style =>
      value.moves.bind fun _ => style.moves.bind fun _ => .emit rfl rfl
  | _, .parse lenient value type culture =>
      value.moves.bind fun _ => culture.moves.bind fun _ => .emit rfl rfl
  | _, .iif condition value otherwise =>
      condition.moves.bind fun _ => value.moves.bind fun _ => otherwise.moves.bind fun _ =>
        .emit rfl rfl
  | _, .searchedCase first others otherwise =>
      first.moves.bind fun _ => others.moves.bind fun _ => otherwise.moves.bind fun _ =>
        .emit rfl (by simp)
  | _, .simpleCase operand first others otherwise =>
      operand.moves.bind fun _ => first.moves.bind fun _ => others.moves.bind fun _ =>
        otherwise.moves.bind fun _ => .emit rfl (by simp)
  | _, .bracketedColumn inner => inner.moves.bind fun _ => .emit rfl rfl
  | _, .subselect statement => statement.moves.bind fun _ => .emit rfl rfl
  | _, .negated operand => operand.moves.bind fun _ => .emit rfl rfl
  | _, .column left operations window => by
    refine left.moves.bind fun left => operations.moves.bind fun operations => ?_
    have windowed (run : NodeId) : Moves distance (NodeId.shift distance)
        (do
          let window ← window.layout
          if window.isNone then pure run
          else emit (.column (.windowed (some run) window)))
        (do
          let window ← window.layout
          if window.isNone then pure (run.shift distance)
          else emit (.column (.windowed (some (run.shift distance)) window))) := by
      refine window.moves.bind fun window => ?_
      cases window with
      | none => exact .pure rfl
      | some window => exact .emit rfl rfl
    cases operations with
    | nil => exact windowed left
    | cons operation operations => exact .bind (.emit rfl (by simp)) windowed
  | _, .operation operator operand => operand.moves.bind fun _ => .emit rfl rfl
  | _, .searchedBranch condition result =>
      condition.moves.bind fun _ => result.moves.bind fun _ => .emit rfl rfl
  | _, .simpleBranch value result =>
      value.moves.bind fun _ => result.moves.bind fun _ => .emit rfl rfl
  | _, .window partitionBy orderBy frame =>
      partitionBy.moves.bind fun _ => orderBy.moves.bind fun _ => .emit rfl (by simp)
  | _, .orderItem column collation direction => column.moves.bind fun _ => .emit rfl rfl
  | _, .condition left links => by
    refine left.moves.bind fun left => links.moves.bind fun links => ?_
    cases links with
    | nil => exact .pure rfl
    | cons link links => exact .emit rfl (by simp)
  | _, .link operator term => term.moves.bind fun _ => .emit rfl rfl
  | _, .comparison left operator right =>
      left.moves.bind fun _ => right.moves.bind fun _ => .emit rfl rfl
  | _, .like left negated right =>
      left.moves.bind fun _ => right.moves.bind fun _ => .emit rfl rfl
  | _, .setComparison left operator quantifier statement =>
      left.moves.bind fun _ => statement.moves.bind fun _ => .bind (.emit rfl rfl) fun _ =>
        .emit rfl rfl
  | _, .inList column negated first others =>
      column.moves.bind fun _ => first.moves.bind fun _ => others.moves.bind fun _ =>
        .emit rfl (by simp)
  | _, .inSelect column negated statement =>
      column.moves.bind fun _ => statement.moves.bind fun _ => .emit rfl rfl
  | _, .between column negated lower upper =>
      column.moves.bind fun _ => lower.moves.bind fun _ => upper.moves.bind fun _ => .emit rfl rfl
  | _, .isNull column negated => column.moves.bind fun _ => .emit rfl rfl
  | _, .exists statement => statement.moves.bind fun _ => .emit rfl rfl
  | _, .not term => term.moves.bind fun _ => .emit rfl rfl
  | _, .bracketedCondition inner => inner.moves.bind fun _ => .emit rfl rfl
  | _, .relation left joins => by
    refine left.moves.bind fun left => joins.moves.bind fun joins => ?_
    cases joins with
    | nil => exact .pure rfl
    | cons join joins => exact .emit rfl (by simp)
  | _, .joinOn type _ source condition =>
      source.moves.bind fun _ => condition.moves.bind fun _ => .emit rfl rfl
  | _, .joinFree type _ source => source.moves.bind fun _ => .emit rfl rfl
  | _, .table name called => .emit rfl rfl
  | _, .bracketedRelation inner => inner.moves.bind fun _ => .emit rfl rfl
  | _, .derived statement called => statement.moves.bind fun _ => .emit rfl rfl
  | _, .selectColumn column none => column.moves.bind fun _ => .pure rfl
  | _, .selectColumn column (some called) => column.moves.bind fun _ => .emit rfl rfl
  | _, .top count percent withTies => count.moves.bind fun _ => .emit rfl rfl
  | _, .pivot aggregation pivotColumn first others called =>
      aggregation.moves.bind fun _ => pivotColumn.moves.bind fun _ => first.moves.bind fun _ =>
        others.moves.bind fun _ => .emit rfl (by simp)
  | _, .groupingSets first others =>
      first.moves.bind fun _ => others.moves.bind fun _ => .emit rfl (by simp)
  | _, .groupList first others => by
    refine first.moves.bind fun firstId => others.moves.bind fun otherIds => ?_
    let marks := (first :: others.toList).map Phrase.isPlainElement
    have moved := moves_groupList distance (marks.zip (firstId :: otherIds))
    rw [← List.zip_map_right] at moved
    exact moved
  | _, .columnSet columns => columns.moves.bind fun _ => .emit rfl (by simp)
  | _, .functionSet function first others =>
      first.moves.bind fun _ => others.moves.bind fun _ => .emit rfl (by simp)
  | _, .functionGroup set => set.moves
  | _, .plainElement column => column.moves
  | _, .functionElement set => set.moves
  | _, .orderBy first others offset fetch =>
      first.moves.bind fun _ => others.moves.bind fun _ => offset.moves.bind fun _ =>
        fetch.moves.bind fun _ => .emit rfl (by simp)
  | _, .optionHints first others => .emit rfl rfl
  | _, .block connective top distinct first others sources pivot filter groupBy having =>
      top.moves.bind fun _ => first.moves.bind fun _ => others.moves.bind fun _ =>
        sources.moves.bind fun _ => pivot.moves.bind fun _ => filter.moves.bind fun _ =>
          groupBy.moves.bind fun _ => having.moves.bind fun _ => .emit rfl (by simp)
  | _, .cte name columns statement => statement.moves.bind fun _ => .emit rfl rfl
  | _, .statement ctes first others orderBy options =>
      ctes.moves.bind fun _ => first.moves.bind fun _ => others.moves.bind fun _ =>
        orderBy.moves.bind fun _ => options.moves.bind fun _ => .emit rfl (by simp)

/-- A phrase that may be missing moves as it does, or has no nodes at all. -/
theorem Perhaps.moves : {form : Form} → (perhaps : Perhaps form) →
    Moves distance (Option.map (NodeId.shift distance)) perhaps.layout perhaps.layout
  | _, .absent => .pure rfl
  | _, .present phrase => phrase.moves.bind fun _ => .pure rfl

theorem Phrases.moves : {form : Form} → (phrases : Phrases form) →
    Moves distance (List.map (NodeId.shift distance)) phrases.layout phrases.layout
  | _, .nil => .pure rfl
  | _, .cons first others => first.moves.bind fun _ => others.moves.bind fun _ => .pure rfl

end

end

end SelectTree
