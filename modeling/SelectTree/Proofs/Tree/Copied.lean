/-
Module: SelectTree.Proofs.Tree.Copied
Purpose: how a copy that is made comes about, and what that leaves of the tree.
Main exports: FieldValue.Alike, Tree.Copied, Tree.copied_of_cloneDownTo, Tree.Continues,
  Tree.Copied.continues, Tree.Copied.fitting, Tree.Sound.exists_copied

The program that copies is opened once, in `copied_of_cloneDownTo`.  Whatever else is to be known
about a copy follows by induction on how it came about: the children were copied one after the
other, each in the tree that the copies before it had left, and then the node was added over
their copies.
-/
import SelectTree.Proofs.Tree.Clone
import SelectTree.Proofs.Tree.Preorder

namespace SelectTree

/-! ### Contents that differ in their children only -/

namespace FieldValue

/-- The same contents, but for which children are held: plain values are equal, lists are of the
same length, and the same places are empty. -/
def Alike : FieldValue → FieldValue → Prop
  | .child slot, .child copy => copy.isSome = slot.isSome
  | .children slots, .children copies =>
      List.Forall₂ (fun slot copy : Slot => copy.isSome = slot.isSome) slots copies
  | value, copy => copy = value

/-- Contents that differ only in which children they hold fit the same fields and hold equally many.
-/
theorem Alike.sameShape {value copy : FieldValue} (alike : value.Alike copy) :
    value.SameShape copy := by
  cases value with
  | child slot =>
      cases copy with
      | child copied =>
          constructor
          · intro type
            cases type <;> rfl
          · simp only [Alike] at alike
            cases slot <;> cases copied <;> simp_all [childIds]
      | _ => cases alike
  | children slots =>
      cases copy with
      | children copies =>
          constructor
          · intro type
            cases type <;> rfl
          · simp only [Alike] at alike
            simp only [childIds]
            induction alike with
            | nil => rfl
            | @cons slot copied _ _ same _ ih => cases slot <;> cases copied <;> simp_all
      | _ => cases alike
  | _ =>
      cases alike
      exact ⟨fun _ => rfl, rfl⟩

theorem sameShapes {values copies : List FieldValue}
    (alike : List.Forall₂ Alike values copies) : List.Forall₂ SameShape values copies :=
  alike.imp fun _ _ same => same.sameShape

end FieldValue

namespace Tree

/-! ### How a copy comes about -/

mutual

/-- Copying a node gives a number and leads to a tree. -/
inductive Copied : Tree → NodeId → NodeId → Tree → Prop where
  | node {tree after : Tree} {id : NodeId} {node : Node} {values : List FieldValue}
      (found : tree.node? id = some node)
      (alike : List.Forall₂ FieldValue.Alike node.values values)
      (below : CopiedEach tree node.childIds (values.flatMap FieldValue.childIds) after) :
      Copied tree id after.nextId (after.attach (node.withValues values))

/-- Copying nodes one after the other. -/
inductive CopiedEach : Tree → List NodeId → List NodeId → Tree → Prop where
  | nil {tree : Tree} : CopiedEach tree [] [] tree
  | cons {tree middle after : Tree} {id copy : NodeId} {ids copies : List NodeId}
      (first : Copied tree id copy middle) (others : CopiedEach middle ids copies after) :
      CopiedEach tree (id :: ids) (copy :: copies) after

end

/-- Copies are made one behind the other, so two lists of them join. -/
theorem CopiedEach.append {tree middle after : Tree} {ids copies moreIds moreCopies : List NodeId} :
    CopiedEach tree ids copies middle → CopiedEach middle moreIds moreCopies after →
      CopiedEach tree (ids ++ moreIds) (copies ++ moreCopies) after
  | .nil, second => second
  | .cons first others, second => .cons first (others.append second)

/-! ### Copying as it is programmed -/

/-- The action succeeds with the result and leads to the tree. -/
def Gives {α : Type} (action : Copying α) (tree : Tree) (result : α) (after : Tree) : Prop :=
  action.run.run tree = (some result, after)

section Gives

variable {α β : Type} {tree after : Tree}

/-- What two copying steps give, the second gives in the tree that the first one leaves. -/
theorem gives_bind_iff {first : Copying α} {next : α → Copying β} {result : β} :
    Gives (first >>= next) tree result after ↔
      ∃ value middle, Gives first tree value middle ∧ Gives (next value) middle result after := by
  unfold Gives
  rw [Clones.run_bind]
  rcases first.run.run tree with ⟨_ | value, middle⟩
  · constructor
    · intro given
      cases given
    · rintro ⟨_, _, ⟨⟩, _⟩
  · constructor
    · intro given
      exact ⟨value, middle, rfl, given⟩
    · rintro ⟨_, _, ⟨⟩, given⟩
      exact given

theorem gives_pure_iff {value result : α} :
    Gives (pure value) tree result after ↔ result = value ∧ after = tree := by
  constructor
  · intro given
    cases given
    exact ⟨rfl, rfl⟩
  · rintro ⟨rfl, rfl⟩
    rfl

theorem gives_map_iff {action : Copying α} {convert : α → β} {result : β} :
    Gives (convert <$> action) tree result after ↔
      ∃ value, Gives action tree value after ∧ result = convert value := by
  rw [map_eq_pure_bind, gives_bind_iff]
  constructor
  · rintro ⟨value, middle, given, rest⟩
    obtain ⟨rfl, rfl⟩ := gives_pure_iff.1 rest
    exact ⟨value, given, rfl⟩
  · rintro ⟨value, given, rfl⟩
    exact ⟨value, after, given, gives_pure_iff.2 ⟨rfl, rfl⟩⟩

/-- If the copy of each item holds copies of its children, so do the copies of all items. -/
theorem copied_mapM {items copies : List α} {action : α → Copying α}
    {idsOf : α → List NodeId} {alike : α → α → Prop}
    (each : ∀ item copy before later, Gives (action item) before copy later →
      alike item copy ∧ CopiedEach before (idsOf item) (idsOf copy) later)
    (given : Gives (items.mapM action) tree copies after) :
    List.Forall₂ alike items copies ∧
      CopiedEach tree (items.flatMap idsOf) (copies.flatMap idsOf) after := by
  induction items generalizing tree copies with
  | nil =>
      obtain ⟨rfl, rfl⟩ := gives_pure_iff.1 given
      exact ⟨.nil, .nil⟩
  | cons item items ih =>
      rw [List.mapM_cons] at given
      obtain ⟨copy, middle, first, rest⟩ := gives_bind_iff.1 given
      obtain ⟨others, last, second, finish⟩ := gives_bind_iff.1 rest
      obtain ⟨rfl, rfl⟩ := gives_pure_iff.1 finish
      obtain ⟨isAlike, held⟩ := each item copy tree middle first
      obtain ⟨areAlike, heldByOthers⟩ := ih second
      exact ⟨.cons isAlike areAlike, held.append heldByOthers⟩

end Gives

section CloneNode

variable {cloneNode : NodeId → Copying NodeId}
  (cloneNodes : ∀ id copy tree after, Gives (cloneNode id) tree copy after →
    Copied tree id copy after)

include cloneNodes

/-- A slot is copied as a list of at most one child, and empty slots stay empty. -/
theorem copied_slot (slot copy : Slot) (tree after : Tree)
    (given : Gives (slot.mapM cloneNode) tree copy after) :
    copy.isSome = slot.isSome ∧ CopiedEach tree slot.toList copy.toList after := by
  cases slot with
  | none =>
      obtain ⟨rfl, rfl⟩ := gives_pure_iff.1 given
      exact ⟨rfl, .nil⟩
  | some id =>
      obtain ⟨copied, made, rfl⟩ := gives_map_iff.1 given
      exact ⟨rfl, .cons (cloneNodes id copied tree after made) .nil⟩

/-- The contents of a field are copied with their children in order. -/
theorem copied_value (value copy : FieldValue) (tree after : Tree)
    (given : Gives (cloneValue cloneNode value) tree copy after) :
    value.Alike copy ∧ CopiedEach tree value.childIds copy.childIds after := by
  cases value with
  | child slot =>
      obtain ⟨copied, middle, made, rest⟩ := gives_bind_iff.1 given
      obtain ⟨rfl, rfl⟩ := gives_pure_iff.1 rest
      exact copied_slot cloneNodes slot copied tree _ made
  | children slots =>
      have slotsOf : ∀ slots : List Slot,
          (FieldValue.children slots).childIds = slots.flatMap Option.toList := by
        intro slots
        simp [FieldValue.childIds, List.filterMap_eq_flatMap_toList]
      obtain ⟨copies, middle, made, rest⟩ := gives_bind_iff.1 given
      obtain ⟨rfl, rfl⟩ := gives_pure_iff.1 rest
      rw [slotsOf, slotsOf]
      exact copied_mapM (copied_slot cloneNodes) made
  | _ =>
      obtain ⟨rfl, rfl⟩ := gives_pure_iff.1 given
      exact ⟨rfl, .nil⟩

end CloneNode

/-- By induction on the depth: a node is copied by copying its fields, then adding the node over
their copies. -/
theorem copied_of_cloneDownTo (depth : Nat) (id copy : NodeId) (tree after : Tree)
    (given : Gives (cloneDownTo depth id) tree copy after) : Copied tree id copy after := by
  induction depth generalizing id copy tree after with
  | zero => cases given
  | succ depth ih =>
      rw [cloneDownTo] at given
      obtain ⟨_, _, read, rest⟩ := gives_bind_iff.1 given
      cases read
      cases found : tree.node? id with
      | none =>
          rw [found] at rest
          cases rest
      | some node =>
          rw [found] at rest
          obtain ⟨values, middle, copies, added⟩ := gives_bind_iff.1 rest
          obtain ⟨alike, below⟩ := copied_mapM (copied_value ih) copies
          cases added
          exact .node found alike below

/-! ### What copying leaves of the tree -/

/-- Everything of an earlier tree is there, and newer nodes stand behind their children. -/
structure Continues (before after : Tree) : Prop where
  size_le : before.size ≤ after.size
  node? : ∀ id, before.Has id → after.node? id = before.node? id
  behind : ∀ holder child, after.Holds holder child → before.size ≤ holder.index →
    child.index < holder.index

namespace Continues

theorem refl (tree : Tree) : Continues tree tree where
  size_le := le_rfl
  node? := fun _ _ => rfl
  behind := by
    rintro holder _ ⟨node, found, _⟩ new
    exact absurd (has_of_node? found) (Nat.not_lt.2 new)

variable {first second third : Tree} (one : Continues first second)

include one

theorem has {id : NodeId} (present : first.Has id) : second.Has id :=
  Nat.lt_of_lt_of_le present one.size_le

/-- What continues a continuation continues the first tree. -/
theorem trans (two : Continues second third) : Continues first third where
  size_le := le_trans one.size_le two.size_le
  node? := fun id present => by rw [two.node? id (one.has present), one.node? id present]
  behind := by
    rintro holder child ⟨node, found, held⟩ new
    by_cases present : second.Has holder
    · rw [two.node? holder present] at found
      exact one.behind holder child ⟨node, found, held⟩ new
    · exact two.behind holder child ⟨node, found, held⟩ (Nat.not_lt.1 present)

/-- A node is added over nodes that are there. -/
theorem attach {node : Node} (known : ∀ child ∈ node.childIds, second.Has child) :
    Continues first (second.attach node) where
  size_le := by
    have le := one.size_le
    rw [size_attach]
    omega
  node? := fun id present => by
    rw [node?_attach_of_has second node (one.has present), one.node? id present]
  behind := by
    intro holder child held new
    rcases holds_attach.1 held with ⟨rfl, member⟩ | before
    · exact known child member
    · exact one.behind holder child before new

end Continues

mutual

theorem Copied.continues {tree after : Tree} {id copy : NodeId} :
    Copied tree id copy after → Continues tree after ∧ after.Has copy
  | .node _ alike below => by
      obtain ⟨continues, made⟩ := below.continues
      constructor
      · apply continues.attach
        rw [Node.childIds_withValues (FieldValue.sameShapes alike)]
        exact made
      · simp [Has, nextId]

theorem CopiedEach.continues {tree after : Tree} {ids copies : List NodeId} :
    CopiedEach tree ids copies after →
      Continues tree after ∧ ∀ copy ∈ copies, after.Has copy
  | .nil => ⟨.refl _, by simp⟩
  | .cons first others => by
      obtain ⟨continues, made⟩ := first.continues
      obtain ⟨continuesOn, madeOn⟩ := others.continues
      constructor
      · exact continues.trans continuesOn
      · intro copy member
        rcases List.mem_cons.1 member with rfl | other
        · exact continuesOn.has made
        · exact madeOn copy other

end

/-- A copy has the class of its original, which is still there. -/
theorem Copied.sameClass {tree after : Tree} {id copy : NodeId}
    (copied : Copied tree id copy after) : SameClass tree after id copy := by
  cases copied with
  | node found alike below =>
      exact ⟨_, _, found, node?_attach_nextId _ _,
        Node.nodeClass_withValues (FieldValue.sameShapes alike)⟩

mutual

/-- Children of the copy fit, as those of the original do. -/
theorem Copied.fitting {tree after : Tree} {id copy : NodeId} :
    Copied tree id copy after → tree.Fitting → after.Fitting
  | .node found alike below, fitting => by
      obtain ⟨grown, sameClass⟩ := below.fitting fitting (.refl _) fun _ held =>
        fitting.has_of_mem found held
      exact grown.attach (fits_withValues fitting found (FieldValue.sameShapes alike) sameClass)

/-- The copies are of the classes that the originals had in any earlier tree. -/
theorem CopiedEach.fitting {start tree after : Tree} {ids copies : List NodeId} :
    CopiedEach tree ids copies after → tree.Fitting → Continues start tree →
      (∀ id ∈ ids, start.Has id) →
        after.Fitting ∧ List.Forall₂ (SameClass start after) ids copies
  | .nil, fitting, _, _ => ⟨fitting, .nil⟩
  | .cons first others, fitting, continues, known => by
      obtain ⟨made, _⟩ := first.continues
      obtain ⟨madeOn, _⟩ := others.continues
      obtain ⟨grown, sameClass⟩ := others.fitting (first.fitting fitting) (continues.trans made)
        fun id member => known id (List.mem_cons_of_mem _ member)
      obtain ⟨node, copied, found, atCopy, class_eq⟩ := first.sameClass
      have inStart := continues.node? _ (known _ List.mem_cons_self)
      have stays := madeOn.node? _ (has_of_node? atCopy)
      exact ⟨grown, .cons ⟨node, copied, inStart ▸ found, stays.trans atCopy, class_eq⟩ sameClass⟩

end

/-! ### There is a copy of every node of a sound tree -/

/-- The action succeeds on every tree that copying makes of a tree, and keeps to such trees. -/
def Succeeds {α : Type} (tree : Tree) (action : Copying α) : Prop :=
  ∀ before, Grown tree before → ∃ result after, Gives action before result after ∧ Grown tree after

namespace Succeeds

variable {α β : Type} {tree : Tree}

theorem pure (value : α) : Succeeds tree (Pure.pure value) :=
  fun before grown => ⟨value, before, rfl, grown⟩

/-- Each step succeeds on whatever copying has made so far, so both do. -/
theorem bind {first : Copying α} {next : α → Copying β} (one : Succeeds tree first)
    (two : ∀ value, Succeeds tree (next value)) : Succeeds tree (first >>= next) := by
  intro before grown
  obtain ⟨value, middle, given, still⟩ := one before grown
  obtain ⟨result, after, givenOn, stillOn⟩ := two value middle still
  exact ⟨result, after, gives_bind_iff.2 ⟨value, middle, given, givenOn⟩, stillOn⟩

theorem map {action : Copying α} (succeeds : Succeeds tree action) (convert : α → β) :
    Succeeds tree (convert <$> action) := by
  rw [map_eq_pure_bind]
  exact succeeds.bind fun value => .pure _

/-- A list is copied if each of its items is. -/
theorem mapM {items : List α} {action : α → Copying β}
    (each : ∀ item ∈ items, Succeeds tree (action item)) : Succeeds tree (items.mapM action) := by
  induction items with
  | nil => exact .pure []
  | cons item items ih =>
      rw [List.mapM_cons]
      have others := ih fun item member => each item (List.mem_cons_of_mem _ member)
      exact (each item List.mem_cons_self).bind fun _ => others.bind fun _ => .pure _

theorem mapMSlot {slot : Slot} {action : NodeId → Copying NodeId}
    (each : ∀ id ∈ slot.toList, Succeeds tree (action id)) : Succeeds tree (slot.mapM action) := by
  cases slot with
  | none => exact .pure none
  | some id => exact (each id (List.mem_singleton.2 rfl)).map some

theorem cloneValue {action : NodeId → Copying NodeId} {value : FieldValue}
    (each : ∀ id ∈ value.childIds, Succeeds tree (action id)) :
    Succeeds tree (Tree.cloneValue action value) := by
  cases value with
  | child slot => exact (mapMSlot each).map _
  | children slots =>
      refine (mapM fun slot member => mapMSlot fun id held => each id ?_).map _
      obtain rfl := Option.mem_toList.1 held
      exact List.mem_filterMap.2 ⟨some id, member, rfl⟩
  | _ => exact .pure _

end Succeeds

/-- Copying reaches everything below a node that has a pre-order. -/
theorem succeeds_cloneDownTo {tree : Tree} {depth : Nat} {id : NodeId} {order : List NodeId}
    (listed : tree.preorder? depth id = some order) :
    Succeeds tree (cloneDownTo depth id) := by
  induction depth generalizing id order with
  | zero => cases listed
  | succ depth ih =>
      obtain ⟨node, below, found, listedBelow, -⟩ := preorder?_succ.1 listed
      have children : ∀ child ∈ node.childIds, Succeeds tree (cloneDownTo depth child) := by
        intro child held
        obtain ⟨_, _, listedChild⟩ :=
          exists_right_of_mem listedBelow (node.children_perm.mem_iff.2 held)
        exact ih listedChild
      have values : Succeeds tree (node.values.mapM (cloneValue (cloneDownTo depth))) := by
        apply Succeeds.mapM
        intro value member
        apply Succeeds.cloneValue
        intro child held
        exact children child (List.mem_flatMap.2 ⟨value, member, held⟩)
      intro before grown
      obtain ⟨copies, middle, given, _⟩ := values before grown
      have atId : before.node? id = some node := by
        rw [grown.node? id (has_of_node? found), found]
      have gives : Gives (cloneDownTo (depth + 1) id) before middle.nextId
          (middle.attach (node.withValues copies)) := by
        rw [cloneDownTo]
        refine gives_bind_iff.2 ⟨before, before, rfl, ?_⟩
        rw [atId]
        exact gives_bind_iff.2 ⟨copies, middle, given, rfl⟩
      refine ⟨_, _, gives, grown.trans ?_⟩
      have known : ∀ original ∈ [id], before.Has original := by
        intro original member
        rw [List.mem_singleton.1 member]
        exact has_of_node? atId
      have grownOn := (clones_cloneDownTo (depth + 1) id before grown.sound known).1
      rw [gives] at grownOn
      exact grownOn

/-- Every node of a sound tree has a copy. -/
theorem Sound.exists_copied {tree : Tree} (sound : tree.Sound) {id : NodeId}
    (present : tree.Has id) :
    ∃ copy after, tree.clone id = (some copy, after) ∧ Copied tree id copy after := by
  obtain ⟨order, listed⟩ := sound.exists_preorder? present
  have enough := preorder?_mono (Nat.le_succ tree.size) listed
  obtain ⟨copy, after, given, _⟩ := succeeds_cloneDownTo enough tree (.refl sound)
  exact ⟨copy, after, given, copied_of_cloneDownTo _ id copy tree after given⟩

end Tree

end SelectTree
