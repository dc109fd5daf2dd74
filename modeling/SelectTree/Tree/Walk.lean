/-
Module: SelectTree.Tree.Walk
Purpose: a node and everything below it, parents before their children.
Main exports: Tree.walk?, Tree.descendants?, Tree.kinds?, Tree.preorder?

The walk keeps the numbers of the nodes it still has to visit.  `preorder?` says the same by
recursion on the depth.
-/
import SelectTree.Tree

namespace SelectTree.Tree

/-- Visits the pending nodes, each followed by what is below it, in at most as many steps as the
first argument says.  There is no answer if a node does not exist or the steps do not
suffice. -/
def walk? (tree : Tree) : Nat → List NodeId → Option (List NodeId)
  | _, [] => some []
  | 0, _ :: _ => none
  | steps + 1, id :: pending => do
      let children ← tree.children? id
      let visited ← tree.walk? steps (children ++ pending)
      return id :: visited

/-- Number of nodes at and below a node, down to a depth; a node that occurs in several places
counts several times. -/
def countDownTo (tree : Tree) : Nat → NodeId → Nat
  | 0, _ => 0
  | depth + 1, id =>
      ((tree.children? id).getD []).foldl
        (fun count child => count + tree.countDownTo depth child) 1

/-- A node and everything below it.  No path through a tree without cycles is longer than the
tree has nodes. -/
def descendants? (tree : Tree) (id : NodeId) : Option (List NodeId) :=
  tree.walk? (tree.countDownTo (tree.size + 1) id) [id]

/-- A node and everything below it down to a depth: first the node, then each child with what
is below it. -/
def preorder? (tree : Tree) : Nat → NodeId → Option (List NodeId)
  | 0, _ => none
  | depth + 1, id => do
      let children ← tree.children? id
      let below ← children.mapM (tree.preorder? depth)
      return id :: below.flatten

/-- The kinds of a node and of everything below it. -/
def kinds? (tree : Tree) (id : NodeId) : Option (List Kind) := do
  let ids ← tree.descendants? id
  return ids.filterMap fun id => (tree.node? id).map Node.kind

end SelectTree.Tree
