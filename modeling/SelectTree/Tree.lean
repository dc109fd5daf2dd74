/-
Module: SelectTree.Tree
Purpose: syntax trees as numbered nodes with a recorded parent each.
Main exports: Entry, Tree, Tree.new, Tree.attach, Tree.children?
-/
import SelectTree.Node.Access

namespace SelectTree

/-- A node of a tree and its recorded parent. -/
structure Entry where
  node : Node
  parent : Option NodeId
deriving Repr, Inhabited, DecidableEq

/-- Nodes in the order in which they were added.  Number 0 is the root. -/
structure Tree where
  entries : Array Entry
deriving Repr, DecidableEq

namespace Tree

/-- A tree of nothing but a root. -/
def new : Tree :=
  { entries := #[{ node := .root none, parent := none }] }

instance : Inhabited Tree := ⟨new⟩

/-- Number of nodes. -/
def size (tree : Tree) : Nat :=
  tree.entries.size

/-- The node of the given number. -/
def node? (tree : Tree) (id : NodeId) : Option Node :=
  tree.entries[id.index]?.map Entry.node

/-- The recorded parent of a node. -/
def parent? (tree : Tree) (id : NodeId) : Option NodeId :=
  tree.entries[id.index]?.bind Entry.parent

/-- The child of the root. -/
def rootChild? (tree : Tree) : Option NodeId :=
  match tree.node? .root with
  | some (.root child) => child
  | _ => none

/-- The children of a node, those in fields for one child first. -/
def children? (tree : Tree) (id : NodeId) : Option (List NodeId) :=
  (tree.node? id).map Node.children

/-- Records a parent, or that there is none. -/
def recordParent (tree : Tree) (parent : Option NodeId) (id : NodeId) : Tree :=
  { entries := tree.entries.modify id.index fun entry => { entry with parent } }

/-- Puts another node in the place of one. -/
def setNode (tree : Tree) (id : NodeId) (node : Node) : Tree :=
  { entries := tree.entries.modify id.index fun entry => { entry with node } }

/-- The number that the next node gets. -/
def nextId (tree : Tree) : NodeId :=
  { index := tree.size }

/-- Adds a node without parent. -/
def push (tree : Tree) (node : Node) : Tree :=
  { entries := tree.entries.push { node, parent := none } }

/-- Adds a node and records it as the parent of its children. -/
def attach (tree : Tree) (node : Node) : Tree :=
  let id := tree.nextId
  node.childIds.foldl (fun grown child => grown.recordParent (some id) child) (tree.push node)

/-- Makes a node the child of the root; what was there before is left without parent. -/
def setRootChild (tree : Tree) (child : NodeId) : Tree :=
  let freed :=
    match tree.rootChild? with
    | some previous => tree.recordParent none previous
    | none => tree
  (freed.setNode .root (.root (some child))).recordParent (some .root) child

end Tree

end SelectTree
