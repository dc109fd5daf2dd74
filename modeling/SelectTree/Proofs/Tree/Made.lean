/-
Module: SelectTree.Proofs.Tree.Made
Purpose: all trees that the operations on trees can make, sound or not.
Main exports: Tree.Made, Tree.Made.closed

Recording a parent by hand and replacing a child without recording it leave trees that are not
sound.  Still every such tree has its root, and its recorded parents are nodes.
-/
import SelectTree.Proofs.Tree.Replace
import SelectTree.Proofs.Tree.Rollback

namespace SelectTree

namespace Tree

namespace Closed

variable {tree : Tree} (closed : tree.Closed)

include closed

/-- Recording a parent by hand needs only that the parent is a node. -/
theorem recordParent (parent : Option NodeId) (child : NodeId)
    (known : ∀ id, parent = some id → tree.Has id) :
    (tree.recordParent parent child).Closed where
  size_pos := by simpa using closed.size_pos
  has_parent := by
    intro id above recorded
    by_cases same : id = child
    · have present : tree.Has child := by
        simpa [Has, same] using has_of_parent? recorded
      rw [parent?_recordParent tree parent child id present, if_pos same] at recorded
      simpa [Has] using known above recorded
    · rw [parent?_recordParent_of_ne tree parent same] at recorded
      simpa [Has] using closed.has_parent id above recorded

theorem setNode (target : NodeId) (node : Node) : (tree.setNode target node).Closed where
  size_pos := by simpa using closed.size_pos
  has_parent := by
    intro id above recorded
    rw [parent?_setNode] at recorded
    simpa [Has] using closed.has_parent id above recorded

/-- The child that the root had, if any, is made to hang nowhere, and then the new one is recorded.
-/
theorem setRootChild (child : NodeId) : (tree.setRootChild child).Closed := by
  unfold Tree.setRootChild
  split
  · refine ((closed.recordParent none _ nofun).setNode _ _).recordParent _ _ ?_
    rintro id ⟨⟩
    simpa [Has, NodeId.root] using closed.size_pos
  · refine (closed.setNode _ _).recordParent _ _ ?_
    rintro id ⟨⟩
    simpa [Has, NodeId.root] using closed.size_pos

/-- A rollback keeps only parents that are nodes of what is left. -/
theorem rollback (checkpoint : Checkpoint) : (tree.rollback checkpoint).Closed := by
  rcases rollback_eq_self_or tree checkpoint with same | ⟨later, nonempty⟩
  · rw [same]
    exact closed
  · constructor
    · rw [size_rollback later nonempty]
      exact Nat.pos_of_ne_zero nonempty
    · intro id above recorded
      obtain ⟨_, kept, _⟩ := (parent?_rollback_eq_some_iff later nonempty).1 recorded
      rw [Has, size_rollback later nonempty]
      exact kept

end Closed

/-! ### Copying -/

/-- The action leaves a closed tree closed, also when it fails. -/
def KeepsClosed {α : Type} (action : Copying α) : Prop :=
  ∀ tree : Tree, tree.Closed → (action.run.run tree).2.Closed

namespace KeepsClosed

variable {α β : Type}

theorem pure (value : α) : KeepsClosed (Pure.pure value) :=
  fun _ closed => closed

theorem bind {first : Copying α} {next : α → Copying β} (one : KeepsClosed first)
    (two : ∀ value, KeepsClosed (next value)) : KeepsClosed (first >>= next) := by
  intro tree closed
  have middle := one tree closed
  rw [Clones.run_bind]
  rcases ran : first.run.run tree with ⟨_ | value, after⟩ <;> rw [ran] at middle
  · exact middle
  · exact two value after middle

theorem map {action : Copying α} (keeps : KeepsClosed action) (convert : α → β) :
    KeepsClosed (convert <$> action) := by
  rw [map_eq_pure_bind]
  exact keeps.bind fun value => .pure _

/-- Copying a list keeps a tree closed if copying each of its items does. -/
theorem mapM {items : List α} {action : α → Copying β}
    (keeps : ∀ item, KeepsClosed (action item)) : KeepsClosed (items.mapM action) := by
  induction items with
  | nil => exact .pure []
  | cons item items ih =>
      rw [List.mapM_cons]
      exact (keeps item).bind fun _ => ih.bind fun _ => .pure _

/-- An empty slot copies nothing. -/
theorem mapMSlot {slot : Slot} {action : NodeId → Copying NodeId}
    (keeps : ∀ id, KeepsClosed (action id)) : KeepsClosed (slot.mapM action) := by
  cases slot with
  | none => exact .pure none
  | some id => exact (keeps id).map some

/-- By induction on the depth: a copy adds nodes and records parents of what it adds. -/
theorem cloneDownTo (depth : Nat) (id : NodeId) : KeepsClosed (Tree.cloneDownTo depth id) := by
  induction depth generalizing id with
  | zero => exact fun _ closed => closed
  | succ depth ih =>
      have values (value : FieldValue) :
          KeepsClosed (cloneValue (Tree.cloneDownTo depth) value) := by
        cases value with
        | child slot => exact (mapMSlot ih).map _
        | children slots => exact (mapM fun slot => mapMSlot ih).map _
        | _ => exact .pure _
      refine .bind (fun _ closed => closed) fun tree => ?_
      cases tree.node? id with
      | none => exact fun _ closed => closed
      | some node =>
          exact .bind (.mapM values) fun copies tree closed => closed.attach _

end KeepsClosed

/-- What the operations on trees, of callers and of rules, make of the new tree. -/
inductive Made : Tree → Prop where
  | new : Made .new
  | add {tree grown : Tree} {node : Node} {id : NodeId} :
      Made tree → tree.add node = .ok (id, grown) → Made grown
  | setParent {tree changed : Tree} {id : NodeId} {parent : Option NodeId} :
      Made tree → tree.setParent id parent = .ok changed → Made changed
  | replaceChild {tree changed : Tree} {parent old new : NodeId} :
      Made tree → tree.replaceChild parent old new = .ok (some changed) → Made changed
  | replaceChildAndReparent {tree changed : Tree} {parent old new : NodeId} :
      Made tree → tree.replaceChildAndReparent parent old new = .ok changed → Made changed
  | clone {tree : Tree} (id : NodeId) : Made tree → Made (tree.clone id).2
  | attach {tree : Tree} (node : Node) : Made tree → Made (tree.attach node)
  | setRootChild {tree : Tree} (child : NodeId) : Made tree → Made (tree.setRootChild child)
  | rollback {tree : Tree} (checkpoint : Checkpoint) :
      Made tree → Made (tree.rollback checkpoint)

/-- Whatever operations made a tree, it has a root and its recorded parents are nodes. -/
theorem Made.closed {tree : Tree} (made : tree.Made) : tree.Closed := by
  induction made with
  | new => exact .new
  | add _ added ih =>
      obtain ⟨-, -, rfl⟩ := add_eq_ok_iff.1 added
      exact ih.attach _
  | setParent _ changed ih =>
      obtain ⟨known, rfl⟩ := setParent_eq_ok changed
      exact ih.recordParent _ _ known
  | replaceChild _ changed ih =>
      obtain ⟨_, _, _, _, _, _, _, rfl⟩ := replaceChild_eq_some changed
      exact ih.setNode _ _
  | replaceChildAndReparent _ changed ih =>
      obtain ⟨-, -, _, replaced, rfl⟩ := replaceChildAndReparent_eq_ok changed
      obtain ⟨_, _, _, atParent, _, _, _, rfl⟩ := replaceChild_eq_some replaced
      refine ((ih.setNode _ _).recordParent _ _ ?_).recordParent none _ nofun
      rintro id ⟨⟩
      simpa [Has] using has_of_node? atParent
  | clone id _ ih => exact KeepsClosed.cloneDownTo _ id _ ih
  | attach node _ ih => exact ih.attach node
  | setRootChild child _ ih => exact ih.setRootChild child
  | rollback checkpoint _ ih => exact ih.rollback checkpoint

end Tree

end SelectTree
