/-
Module: SelectTree.Proofs.Tree.Rollback
Purpose: taking back what was added since a checkpoint, and when that leaves a sound tree.
Main exports: Tree.Closed, Tree.Closed.attachAll, Tree.rollback_checkpoint,
  Tree.rollback_attachAll, Tree.Linked, Tree.Layered, Tree.Sound.linked_rollback_iff
-/
import SelectTree.Proofs.Layout.Sprout

namespace SelectTree

/-- Without the last node, the others still adopt only each other. -/
theorem SelfContained.of_concat {start : Nat} {nodes : List Node} {node : Node}
    (contained : SelfContained start (nodes ++ [node])) :
    SelfContained start nodes ∧
      ∀ child ∈ node.childIds, start ≤ child.index ∧ child.index < start + nodes.length := by
  refine ⟨fun index found atIndex => ?_, contained nodes.length node (by simp)⟩
  have inside : index < nodes.length := (List.getElem?_eq_some_iff.1 atIndex).1
  exact contained index found (by rw [List.getElem?_append_left inside, atIndex])

namespace Tree

/-- There is a root, and whatever is recorded as a parent is a node. -/
structure Closed (tree : Tree) : Prop where
  size_pos : 0 < tree.size
  has_parent : ∀ child parent, tree.parent? child = some parent → tree.Has parent

namespace Closed

theorem new : Tree.new.Closed where
  size_pos := Nat.one_pos
  has_parent := fun _ _ recorded => Sound.new.has_parent recorded

variable {tree : Tree} (closed : tree.Closed)

include closed

theorem attach (node : Node) : (tree.attach node).Closed where
  size_pos := by simp
  has_parent := by
    intro child parent recorded
    rw [parent?_attach tree node child (has_of_parent? recorded)] at recorded
    split at recorded
    · cases recorded
      simp [Has, nextId]
    · exact has_attach tree node (closed.has_parent child parent recorded)

/-- By induction on the nodes from the end. -/
theorem attachAll (nodes : List Node) : (tree.attachAll nodes).Closed := by
  induction nodes generalizing tree with
  | nil => exact closed
  | cons node nodes ih => exact ih (closed.attach node)

end Closed

section SelfContained

variable {tree : Tree} {nodes : List Node}

/-- A run of nodes that adopt only each other changes nothing that was there before. -/
theorem node?_attachAll_of_has {id : NodeId} (present : tree.Has id) :
    (tree.attachAll nodes).node? id = tree.node? id := by
  induction nodes using List.reverseRecOn with
  | nil => rfl
  | append_singleton nodes node ih =>
      have still : (tree.attachAll nodes).Has id := by
        simp only [Has, size_attachAll] at present ⊢
        omega
      rw [attachAll_concat, node?_attach_of_has _ _ still, ih]

/-- Nodes that adopt only each other leave the parents of all others alone. -/
theorem parent?_attachAll_of_has (contained : SelfContained tree.size nodes) {id : NodeId}
    (present : tree.Has id) : (tree.attachAll nodes).parent? id = tree.parent? id := by
  induction nodes using List.reverseRecOn with
  | nil => rfl
  | append_singleton nodes node ih =>
      obtain ⟨before, inside⟩ := contained.of_concat
      have still : ((tree.attachAll nodes).attach node).Has id := by
        simp only [Has, size_attach, size_attachAll] at present ⊢
        omega
      have old : id ∉ node.childIds :=
        fun held => absurd present (Nat.not_lt.2 (inside id held).1)
      rw [attachAll_concat, parent?_attach _ _ _ still, if_neg old, ih before]

end SelfContained

/-- No recorded parent is behind the nodes of the tree. -/
theorem Closed.filter_parent? {tree : Tree} (closed : tree.Closed) (id : NodeId) :
    (tree.parent? id).filter (·.index < tree.size) = tree.parent? id := by
  cases recorded : tree.parent? id with
  | none => rfl
  | some parent =>
      have inside : parent.index < tree.size := closed.has_parent id parent recorded
      simp [inside]

/-! ### What a rollback leaves -/

section Rollback

variable {tree : Tree} {checkpoint : Checkpoint} (later : checkpoint.size < tree.size)
  (nonempty : checkpoint.size ≠ 0)

include later nonempty

theorem rollback_eq :
    tree.rollback checkpoint =
      { entries := (tree.entries.take checkpoint.size).map (Entry.release checkpoint.size) } := by
  rw [rollback, if_neg]
  omega

/-- What is kept forgets a parent that is dropped. -/
theorem getElem?_rollback (index : Nat) :
    (tree.rollback checkpoint).entries[index]? =
      if index < checkpoint.size then
        tree.entries[index]?.map (Entry.release checkpoint.size)
      else none := by
  have within : checkpoint.size ≤ tree.entries.size := Nat.le_of_lt later
  rw [rollback_eq later nonempty, Array.getElem?_map, Array.take_eq_extract,
    Array.getElem?_extract, Nat.min_eq_left within, Nat.zero_add, Nat.sub_zero]
  split <;> rfl

/-- Exactly the older nodes are kept, as they are. -/
theorem node?_rollback (id : NodeId) :
    (tree.rollback checkpoint).node? id =
      if id.index < checkpoint.size then tree.node? id else none := by
  simp only [node?, getElem?_rollback later nonempty]
  split <;> simp [Function.comp_def, Entry.release]

/-- Of the older nodes, exactly the older parents are kept. -/
theorem parent?_rollback (id : NodeId) :
    (tree.rollback checkpoint).parent? id =
      if id.index < checkpoint.size then
        (tree.parent? id).filter (·.index < checkpoint.size)
      else none := by
  simp only [parent?, getElem?_rollback later nonempty]
  split
  · cases tree.entries[id.index]? <;> simp [Entry.release]
  · rfl

theorem node?_rollback_eq_some_iff {id : NodeId} {node : Node} :
    (tree.rollback checkpoint).node? id = some node ↔
      id.index < checkpoint.size ∧ tree.node? id = some node := by
  rw [node?_rollback later nonempty]
  split <;> simp_all

theorem parent?_rollback_eq_some_iff {child parent : NodeId} :
    (tree.rollback checkpoint).parent? child = some parent ↔
      child.index < checkpoint.size ∧ parent.index < checkpoint.size ∧
        tree.parent? child = some parent := by
  rw [parent?_rollback later nonempty]
  split <;> simp_all [Option.filter_eq_some_iff, and_comm]

theorem size_rollback : (tree.rollback checkpoint).size = checkpoint.size := by
  rw [rollback_eq later nonempty]
  simp only [size] at later ⊢
  simp
  omega

end Rollback

/-- Where nothing is newer, nothing is dropped. -/
theorem rollback_eq_self {tree : Tree} {checkpoint : Checkpoint}
    (nothing : tree.size ≤ checkpoint.size ∨ checkpoint.size = 0) :
    tree.rollback checkpoint = tree := by
  rw [rollback, if_pos nothing]

/-- Either nothing is dropped or the checkpoint is inside of the tree. -/
theorem rollback_eq_self_or (tree : Tree) (checkpoint : Checkpoint) :
    tree.rollback checkpoint = tree ∨ (checkpoint.size < tree.size ∧ checkpoint.size ≠ 0) := by
  by_cases nothing : tree.size ≤ checkpoint.size ∨ checkpoint.size = 0
  · exact .inl (rollback_eq_self nothing)
  · exact .inr (by omega)

/-- A tree is restored from a later one in which its nodes are the same and its recorded parents
differ only where newer nodes have adopted. -/
theorem rollback_checkpoint {before now : Tree} (closed : now.Closed) (nonempty : 0 < before.size)
    (size_le : before.size ≤ now.size)
    (nodes : ∀ id, before.Has id → now.node? id = before.node? id)
    (parents : ∀ id, before.Has id →
      (now.parent? id).filter (·.index < before.size) = before.parent? id) :
    now.rollback before.checkpoint = before := by
  rcases Nat.eq_or_lt_of_le size_le with same | later
  · have nothing : now.size ≤ before.checkpoint.size := Nat.le_of_eq same.symm
    rw [rollback_eq_self (.inl nothing)]
    apply ext_lookup
    · intro id
      by_cases present : before.Has id
      · exact nodes id present
      · have absent := Nat.not_lt.1 present
        rw [node?_eq_none_iff.2 absent, node?_eq_none_iff.2 (same ▸ absent)]
    · intro id
      by_cases present : before.Has id
      · rw [← parents id present, same, closed.filter_parent?]
      · have absent := Nat.not_lt.1 present
        rw [parent?_eq_none_of_size_le absent, parent?_eq_none_of_size_le (same ▸ absent)]
  · have later : before.checkpoint.size < now.size := later
    have nonzero : before.checkpoint.size ≠ 0 := Nat.ne_of_gt nonempty
    apply ext_lookup
    · intro id
      rw [node?_rollback later nonzero]
      split
      · next present => exact nodes id present
      · next absent => exact (node?_eq_none_iff.2 (Nat.not_lt.1 absent)).symm
    · intro id
      rw [parent?_rollback later nonzero]
      split
      · next present => exact parents id present
      · next absent => exact (parent?_eq_none_of_size_le (Nat.not_lt.1 absent)).symm

/-- Dropping a run of nodes that adopt only each other gives the tree from before. -/
theorem rollback_attachAll {tree : Tree} {nodes : List Node} (closed : tree.Closed)
    (contained : SelfContained tree.size nodes) :
    (tree.attachAll nodes).rollback tree.checkpoint = tree := by
  apply rollback_checkpoint (closed.attachAll nodes) closed.size_pos
  · simp
  · intro id present
    exact node?_attachAll_of_has present
  · intro id present
    rw [parent?_attachAll_of_has contained present, closed.filter_parent?]

/-! ### Rolling back sound trees -/

/-- Every child exists, fits the field that holds it and records the node that holds it. -/
def Linked (tree : Tree) : Prop :=
  ∀ holder node field child, tree.node? holder = some node → (field, child) ∈ node.placements →
    (∃ found, tree.node? child = some found ∧ field.Fits found.nodeClass) ∧
      tree.parent? child = some holder

/-- No node from before a checkpoint holds one from behind it. -/
def Layered (tree : Tree) (checkpoint : Checkpoint) : Prop :=
  ∀ holder child, tree.Holds holder child → holder.index < checkpoint.size →
    child.index < checkpoint.size

/-- If all recorded parents were recorded before, the ways up are no longer than before. -/
theorem Anchored.of_fewer {tree result : Tree} {id : NodeId} (anchored : tree.Anchored id)
    (fewer : ∀ child parent, result.parent? child = some parent →
      tree.parent? child = some parent) : result.Anchored id := by
  induction anchored with
  | @top id recorded =>
      apply Anchored.of_parent?_eq
      intro parent now
      rw [fewer id parent now] at recorded
      cases recorded
  | @under id above recorded _ ih =>
      apply Anchored.of_parent?_eq
      intro parent now
      rw [fewer id parent now] at recorded
      cases recorded
      exact ih

namespace Sound

variable {tree : Tree} (sound : tree.Sound)

include sound

theorem closed : tree.Closed where
  size_pos := sound.size_pos
  has_parent := fun _ _ recorded => sound.has_parent recorded

theorem linked : tree.Linked := by
  intro holder node field child found placed
  constructor
  · exact sound.fits holder node field child found placed
  · exact sound.parent?_of_mem found (Node.mem_childIds_of_placement placed)

/-- Dropping nodes that no older node holds keeps a tree sound. -/
theorem rollback {checkpoint : Checkpoint} (layered : tree.Layered checkpoint) :
    (tree.rollback checkpoint).Sound := by
  rcases rollback_eq_self_or tree checkpoint with same | ⟨later, nonempty⟩
  · rw [same]
    exact sound
  · apply Sound.of_lookup
    · obtain ⟨child, isRoot⟩ := sound.root_node
      have kept : NodeId.root.index < checkpoint.size := Nat.pos_of_ne_zero nonempty
      exact ⟨child, (node?_rollback_eq_some_iff later nonempty).2 ⟨kept, isRoot⟩⟩
    · intro parent node field child found placed
      obtain ⟨kept, foundBefore⟩ := (node?_rollback_eq_some_iff later nonempty).1 found
      obtain ⟨childNode, atChild, fits⟩ := sound.fits parent node field child foundBefore placed
      have held : tree.Holds parent child :=
        ⟨node, foundBefore, Node.mem_childIds_of_placement placed⟩
      have keptChild := layered parent child held kept
      exact ⟨childNode, (node?_rollback_eq_some_iff later nonempty).2 ⟨keptChild, atChild⟩, fits⟩
    · intro id node found
      exact sound.nodup ((node?_rollback_eq_some_iff later nonempty).1 found).2
    · intro parent child
      rw [parent?_rollback_eq_some_iff later nonempty, sound.parent?_iff]
      constructor
      · rintro ⟨_, kept, node, found, held⟩
        exact ⟨node, (node?_rollback_eq_some_iff later nonempty).2 ⟨kept, found⟩, held⟩
      · rintro ⟨node, found, held⟩
        obtain ⟨kept, foundBefore⟩ := (node?_rollback_eq_some_iff later nonempty).1 found
        have holds : tree.Holds parent child := ⟨node, foundBefore, held⟩
        exact ⟨layered parent child holds kept, kept, holds⟩
    · intro id
      apply (sound.anchored id).of_fewer
      intro child parent recorded
      exact ((parent?_rollback_eq_some_iff later nonempty).1 recorded).2.2

/-- After a rollback every child is in order exactly if no older node held a dropped one. -/
theorem linked_rollback_iff {checkpoint : Checkpoint} :
    (tree.rollback checkpoint).Linked ↔ tree.Layered checkpoint := by
  constructor
  · intro linked holder child held before
    obtain ⟨node, found, inside⟩ := held
    by_cases nothing : tree.size ≤ checkpoint.size
    · exact Nat.lt_of_lt_of_le (sound.has_of_mem found inside) nothing
    · have later := Nat.not_le.1 nothing
      have nonempty : checkpoint.size ≠ 0 := Nat.ne_of_gt (Nat.zero_lt_of_lt before)
      have foundNow := (node?_rollback_eq_some_iff later nonempty).2 ⟨before, found⟩
      obtain ⟨field, placed⟩ := Node.exists_placement inside
      obtain ⟨⟨_, atChild, _⟩, _⟩ := linked holder node field child foundNow placed
      have kept := has_of_node? atChild
      rwa [Has, size_rollback later nonempty] at kept
  · intro layered
    exact (sound.rollback layered).linked

end Sound

end Tree

end SelectTree
