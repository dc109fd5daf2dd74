/-
Module: SelectTree.Proofs.Tree.Proper
Purpose: sound trees in which everything hangs below the one root.
Main exports: Tree.ids, Tree.Proper, Tree.Sound.exists_climb_root, Tree.Sound.proper
-/
import SelectTree.Proofs.Tree.Attach
import SelectTree.Proofs.Tree.Preorder

namespace SelectTree

namespace Tree

/-- The numbers of all nodes. -/
def ids (tree : Tree) : List NodeId :=
  (List.range tree.size).map NodeId.mk

theorem mem_ids {tree : Tree} {id : NodeId} : id ∈ tree.ids ↔ tree.Has id := by
  simp only [ids, List.mem_map, List.mem_range, Has]
  constructor
  · rintro ⟨index, inside, rfl⟩
    exact inside
  · intro inside
    exact ⟨id.index, inside, rfl⟩

theorem nodup_ids (tree : Tree) : tree.ids.Nodup := by
  refine List.nodup_range.map ?_
  intro first second same
  exact congrArg NodeId.index same

theorem Holds.mem_heldIds {tree : Tree} {parent child : NodeId}
    (holds : tree.Holds parent child) : child ∈ tree.heldIds := by
  obtain ⟨node, found, held⟩ := holds
  obtain ⟨entry, isEntry, rfl⟩ := Option.map_eq_some_iff.1 found
  refine List.mem_flatMap.2 ⟨entry, ?_, held⟩
  exact List.mem_iff_getElem?.2 ⟨parent.index, by simpa using isEntry⟩

/-- A sound tree that is one tree, with nothing beside it. -/
structure Proper (tree : Tree) : Prop extends Tree.Sound tree where
  root_child : ∃ child, tree.node? .root = some (.root (some child))
  /-- There is no root but number 0. -/
  only_root : ∀ id node, tree.node? id = some node → node.nodeClass = .root → id = .root
  /-- Every other node is in one place of all places of the tree. -/
  held_once : ∀ id, tree.Has id → id ≠ .root → tree.heldIds.count id = 1
  /-- The pre-order of the root lists every node, and each of them once. -/
  preorder : ∃ order, tree.descendants? .root = some order ∧ order.Perm tree.ids
  /-- A node is older than its parent, unless the parent is the root. -/
  upward : ∀ parent child, tree.parent? child = some parent → parent ≠ .root →
    child.index < parent.index

namespace Sound

variable {tree : Tree} (sound : tree.Sound)

include sound

/-- The way up from a node ends at a node that hangs nowhere. -/
theorem exists_climb_top {id : NodeId} (present : tree.Has id) :
    ∃ steps top, tree.climb steps id = some top ∧ tree.Has top ∧ tree.parent? top = none := by
  induction sound.anchored id with
  | @top id recorded => exact ⟨0, id, rfl, present, recorded⟩
  | under recorded _ ih =>
      obtain ⟨steps, top, reached, presentTop, loose⟩ := ih (sound.has_parent recorded)
      exact ⟨steps + 1, top, by simp [climb_succ, recorded, reached], presentTop, loose⟩

/-- If nothing but the root hangs nowhere, then everything is below the root. -/
theorem exists_climb_root
    (hangs : ∀ id, tree.Has id → tree.parent? id = none → id = .root) {id : NodeId}
    (present : tree.Has id) : ∃ steps, tree.climb steps id = some .root := by
  obtain ⟨steps, top, reached, presentTop, loose⟩ := sound.exists_climb_top present
  exact ⟨steps, hangs top presentTop loose ▸ reached⟩

/-- A sound tree is one tree if nothing but the root hangs nowhere. -/
theorem proper {child : NodeId} (root_child : tree.node? .root = some (.root (some child)))
    (hangs : ∀ id, tree.Has id → tree.parent? id = none → id = .root)
    (upward : ∀ parent child, tree.parent? child = some parent → parent ≠ .root →
      child.index < parent.index) : tree.Proper where
  toSound := sound
  root_child := ⟨child, root_child⟩
  only_root := by
    intro id node found isRoot
    by_contra other
    obtain ⟨parent, recorded⟩ := Option.ne_none_iff_exists'.1
      fun loose => other (hangs id (has_of_node? found) loose)
    obtain ⟨holder, atParent, held⟩ := (sound.parent?_iff parent id).1 recorded
    obtain ⟨found', atId, notRoot⟩ := sound.exists_node?_of_mem atParent held
    rw [found] at atId
    cases atId
    exact notRoot isRoot
  held_once := by
    intro id present other
    refine List.count_eq_one_of_mem sound.once ?_
    obtain ⟨parent, recorded⟩ := Option.ne_none_iff_exists'.1
      fun loose => other (hangs id present loose)
    exact ((sound.parent?_iff parent id).1 recorded).mem_heldIds
  preorder := by
    obtain ⟨order, listed⟩ := sound.exists_preorder? (sound.size_pos : tree.Has .root)
    refine ⟨order, descendants?_of_preorder? (Nat.le_succ _) listed, ?_⟩
    refine (List.perm_ext_iff_of_nodup (sound.nodup_preorder? listed) tree.nodup_ids).2 ?_
    intro id
    rw [sound.mem_preorder?_iff listed, mem_ids]
    constructor
    · rintro ⟨steps | steps, reached⟩
      · exact Option.some.inj reached ▸ sound.size_pos
      · obtain ⟨parent, recorded, _⟩ := Option.bind_eq_some_iff.1 reached
        exact has_of_parent? recorded
    · exact sound.exists_climb_root hangs
  upward := upward

end Sound

end Tree

end SelectTree
