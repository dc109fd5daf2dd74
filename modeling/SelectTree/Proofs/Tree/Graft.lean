/-
Module: SelectTree.Proofs.Tree.Graft
Purpose: a tree that is put into another one, all its numbers so many places further.
Main exports: Tree.graft, Tree.Carries, Tree.graft_attachAll, Tree.carries_attachAll
-/
import SelectTree.Proofs.Layout.Shift
import SelectTree.Proofs.Tree.Sound

namespace SelectTree

namespace Tree

/-- The nodes of a tree behind its root, in their order. -/
def planted (tree : Tree) : List Node :=
  (tree.entries.toList.map Entry.node).tail

/-- Adds the nodes of another tree but its root, so many places further as there are nodes
already. -/
def graft (tree other : Tree) : Tree :=
  tree.attachAll (other.planted.map (Node.shift (tree.size - 1)))

/-- Everything of another tree but its root is there, so many places further. -/
structure Carries (tree other : Tree) (distance : Nat) : Prop where
  node? : ∀ id node, id ≠ .root → other.node? id = some node →
    tree.node? (id.shift distance) = some (node.shift distance)
  parent? : ∀ id parent, other.parent? id = some parent →
    tree.parent? (id.shift distance) = some (parent.shift distance)

/-- Attached nodes are found behind the old ones, in order. -/
theorem node?_attachAll (tree : Tree) (nodes : List Node) (id : NodeId) :
    (tree.attachAll nodes).node? id =
      if id.index < tree.size then tree.node? id else nodes[id.index - tree.size]? := by
  induction nodes using List.reverseRecOn with
  | nil =>
      split
      · rfl
      · next outside => simpa using node?_eq_none_iff.2 (Nat.not_lt.1 outside)
  | append_singleton nodes node ih =>
      rw [attachAll_concat, node?_attach, ih]
      split
      · next last => simp [last, nextId]
      · next other =>
          have differ : id.index ≠ tree.size + nodes.length := by
            intro same
            apply other
            simp [nextId, ← same]
          split
          · rfl
          · rcases Nat.lt_or_ge (id.index - tree.size) nodes.length with before | behind
            · rw [List.getElem?_append_left before]
            · rw [List.getElem?_eq_none behind, List.getElem?_eq_none]
              rw [List.length_append, List.length_singleton]
              omega

/-- The first of the nodes that are added gets the next number. -/
theorem node?_attachAll_cons (tree : Tree) (node : Node) (nodes : List Node) :
    (tree.attachAll (node :: nodes)).node? tree.nextId = some node := by
  simp [node?_attachAll, nextId]

theorem node?_root_attachAll (nodes : List Node) :
    (Tree.new.attachAll nodes).node? .root = some (.root none) := by
  rw [node?_attachAll]
  rfl

theorem node?_attachAll_of_ne_root (nodes : List Node) {id : NodeId} (notRoot : id ≠ .root) :
    (Tree.new.attachAll nodes).node? id = nodes[id.index - 1]? := by
  have behind : ¬ id.index < Tree.new.size := by
    intro inside
    exact notRoot (NodeId.ext_index (Nat.lt_one_iff.1 inside))
  rw [node?_attachAll, if_neg behind]
  rfl

theorem nextId_attachAll (nodes : List Node) :
    (Tree.new.attachAll nodes).nextId = { index := 1 + nodes.length } :=
  congrArg NodeId.mk (size_attachAll Tree.new nodes)

/-- The nodes that were attached to a new tree are what is planted in it. -/
theorem planted_attachAll (nodes : List Node) : (Tree.new.attachAll nodes).planted = nodes := by
  apply List.ext_getElem?
  intro index
  have notRoot : (⟨index + 1⟩ : NodeId) ≠ .root := by simp [NodeId.root]
  have atIndex := node?_attachAll_of_ne_root nodes notRoot
  simpa [planted, Tree.node?] using atIndex

/-- Grafting adds the nodes of the other tree behind those that are there. -/
theorem graft_attachAll (before nodes : List Node) :
    (Tree.new.attachAll before).graft (Tree.new.attachAll nodes) =
      Tree.new.attachAll (before ++ nodes.map (Node.shift before.length)) := by
  have grown : (Tree.new.attachAll before).size - 1 = before.length := by
    rw [size_attachAll]
    exact Nat.add_sub_cancel_left 1 before.length
  rw [graft, planted_attachAll, grown, attachAll_append]

/-- A graft takes as many numbers as it has nodes. -/
theorem nextId_graft (before nodes : List Node) :
    ((Tree.new.attachAll before).graft (Tree.new.attachAll nodes)).nextId =
      { index := 1 + before.length + nodes.length } := by
  rw [graft_attachAll, nextId_attachAll, List.length_append, List.length_map, Nat.add_assoc]

/-- In sound trees the recorded parents go with the nodes. -/
theorem Sound.carries {tree other : Tree} {distance : Nat} (sound : tree.Sound)
    (otherSound : other.Sound) (vacant : other.node? .root = some (.root none))
    (node? : ∀ id node, id ≠ .root → other.node? id = some node →
      tree.node? (id.shift distance) = some (node.shift distance)) :
    tree.Carries other distance where
  node? := node?
  parent? := by
    intro id parent recorded
    obtain ⟨node, atParent, held⟩ := (otherSound.parent?_iff parent id).1 recorded
    have notRoot : parent ≠ .root := by
      rintro rfl
      rw [vacant] at atParent
      cases atParent
      cases held
    refine (sound.parent?_iff _ _).2 ⟨node.shift distance, node? parent node notRoot atParent, ?_⟩
    rw [node.childIds_shift]
    exact List.mem_map_of_mem held

/-- A run of nodes behind others is carried so many places further as there are others. -/
theorem carries_attachAll {before nodes behind : List Node}
    (sound : (Tree.new.attachAll nodes).Sound)
    (grownSound : (Tree.new.attachAll
      (before ++ nodes.map (Node.shift before.length) ++ behind)).Sound) :
    (Tree.new.attachAll (before ++ nodes.map (Node.shift before.length) ++ behind)).Carries
      (Tree.new.attachAll nodes) before.length := by
  refine grownSound.carries sound (node?_root_attachAll nodes) fun id node notRoot found => ?_
  have positive : id.index ≠ 0 := fun zero => notRoot (NodeId.ext_index zero)
  have shiftedNotRoot : id.shift before.length ≠ .root := by
    simp [NodeId.shift, NodeId.root, positive]
  have place : (id.shift before.length).index - 1 = before.length + (id.index - 1) := by
    simp only [NodeId.shift]
    omega
  rw [node?_attachAll_of_ne_root nodes notRoot] at found
  have inside := (List.getElem?_eq_some_iff.1 found).1
  rw [node?_attachAll_of_ne_root _ shiftedNotRoot, place, List.append_assoc,
    List.getElem?_append_right (Nat.le_add_right ..), Nat.add_sub_cancel_left,
    List.getElem?_append_left (by simpa using inside), List.getElem?_map, found]
  rfl

end Tree

end SelectTree
