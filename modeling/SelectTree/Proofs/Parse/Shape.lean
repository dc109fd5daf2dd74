/-
Module: SelectTree.Proofs.Parse.Shape
Purpose: every node of the tree of a phrase is one that the grammar describes.
Main exports: Phrase.placed, Phrase.shown_tree, Phrase.regular
-/
import SelectTree.Proofs.Layout.Shape
import SelectTree.Proofs.Parse.Proper
import SelectTree.Proofs.Tree.Graft

namespace SelectTree

namespace Phrase

variable {form : Form} (phrase : Phrase form)

theorem tree_eq_setRootChild :
    phrase.tree =
      (Tree.new.attachAll (phrase.layout.run 1).2).setRootChild (phrase.layout.run 1).1 := rfl

theorem node?_tree (id : NodeId) :
    phrase.tree.node? id =
      if id = .root then some (.root (some (phrase.layout.run 1).1))
      else (phrase.layout.run 1).2[id.index - 1]? := by
  rw [tree_eq_setRootChild, Tree.node?_setRootChild (Tree.node?_root_attachAll _)]
  split
  · rfl
  · next notRoot => exact Tree.node?_attachAll_of_ne_root _ notRoot

/-- In the tree of a phrase the nodes have the numbers behind the root. -/
theorem placed : Placed phrase.tree.node? 1 (phrase.layout.run 1).2 := by
  intro index node found
  have notRoot : (⟨1 + index⟩ : NodeId) ≠ .root := by simp [NodeId.root]
  rw [node?_tree, if_neg notRoot, Nat.add_sub_cancel_left, found]

/-- The child of the root shows the phrase. -/
theorem shown_tree : phrase.Shown phrase.tree.node? (phrase.layout.run 1).1 :=
  (phrase.ensures 1 phrase.placed).1

/-- Every node is one that the grammar describes. -/
theorem regular {id : NodeId} {node : Node} (found : phrase.tree.node? id = some node) :
    node.Regular phrase.tree.node? := by
  rw [node?_tree] at found
  split at found
  · cases found
    exact ⟨.nil, trivial, trivial⟩
  · exact (phrase.ensures 1 phrase.placed).2 node (List.mem_of_getElem? found)

end Phrase

end SelectTree
