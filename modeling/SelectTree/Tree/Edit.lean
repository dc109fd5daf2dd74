/-
Module: SelectTree.Tree.Edit
Purpose: changing trees: adding, moving, replacing and copying nodes, and taking additions back.
Main exports: Tree.add, Tree.setParent, Tree.replaceChild, Tree.replaceChildAndReparent,
  Tree.clone, Tree.checkpoint, Tree.rollback
-/
import SelectTree.Tree.Validate

namespace SelectTree.Tree

/-- Adds a node whose children are nodes of the tree that hang nowhere. -/
def add (tree : Tree) (node : Node) : Except TreeError (NodeId × Tree) := do
  tree.checkPlacements [] node.placements
  return (tree.nextId, tree.attach node)

/-- Records another parent.  The children of no node change. -/
def setParent (tree : Tree) (id : NodeId) (parent : Option NodeId) : Except TreeError Tree := do
  let _ ← tree.require id
  if let some parent := parent then discard (tree.require parent)
  return tree.recordParent parent id

/-- Puts a node in the place of the first occurrence of a child.  There is no answer if the
child does not occur.  Recorded parents do not change. -/
def replaceChild (tree : Tree) (parent old new : NodeId) : Except TreeError (Option Tree) := do
  let node ← tree.require parent
  let oldNode ← tree.require old
  let newNode ← tree.require new
  if newNode.nodeClass = .root ∨ oldNode.nodeClass = .root then throw .rootAsChild
  match node.fieldOf? old with
  | none => return none
  | some index =>
      if let some field := node.fields[index]? then field.checkClass newNode.nodeClass
      return some (tree.setNode parent (node.replaceIn index old new))

/-- Some node on the way from a node up through the recorded parents is the candidate.  The
first argument bounds the way. -/
def reachesUp (tree : Tree) (candidate : NodeId) : Nat → NodeId → Bool
  | 0, _ => false
  | steps + 1, id =>
      id == candidate ||
        match tree.parent? id with
        | none => false
        | some parent => tree.reachesUp candidate steps parent

/-- The candidate is the node or above it.  A way up without cycles is not longer than the tree
has nodes. -/
def isAncestorOrSelf (tree : Tree) (candidate id : NodeId) : Bool :=
  tree.reachesUp candidate (tree.size + 1) id

/-- Puts a node that hangs nowhere in the place of a child, which then hangs nowhere. -/
def replaceChildAndReparent (tree : Tree) (parent old new : NodeId) : Except TreeError Tree := do
  let _ ← tree.require new
  if (tree.parent? new).isSome then throw (.alreadyAttached new)
  if tree.isAncestorOrSelf new parent then throw (.cycle parent new)
  match ← tree.replaceChild parent old new with
  | none => throw (.childNotFound parent old)
  | some replaced => return (replaced.recordParent (some parent) new).recordParent none old

/-- Copying may fail half-way and leaves what is copied by then. -/
abbrev Copying (α : Type) := OptionT (StateM Tree) α

/-- The contents of a field with a copy of each child. -/
def cloneValue (cloneNode : NodeId → Copying NodeId) : FieldValue → Copying FieldValue
  | .child slot => return .child (← slot.mapM cloneNode)
  | .children slots => return .children (← slots.mapM fun slot => slot.mapM cloneNode)
  | value => return value

/-- Copies a node and everything below it down to a depth, children before their parents. -/
def cloneDownTo : Nat → NodeId → Copying NodeId
  | 0, _ => failure
  | depth + 1, id => do
      let some node := (← get).node? id | failure
      let values ← node.values.mapM (cloneValue (cloneDownTo depth))
      modifyGet fun tree => (tree.nextId, tree.attach (node.withValues values))

/-- Copies a node and everything below it.  The copy hangs nowhere; empty places stay empty.
There is no copy if a node does not exist. -/
def clone (tree : Tree) (id : NodeId) : Option NodeId × Tree :=
  (cloneDownTo (tree.size + 1) id).run.run tree

/-- The size of a tree at some moment. -/
structure Checkpoint where
  size : Nat
deriving Repr, Inhabited, DecidableEq

/-- Remembers how many nodes there are. -/
def checkpoint (tree : Tree) : Checkpoint :=
  { size := tree.size }

/-- An entry whose parent is dropped together with all nodes from a number on. -/
def Entry.release (size : Nat) (entry : Entry) : Entry :=
  { entry with parent := entry.parent.filter (·.index < size) }

/-- Drops all nodes added since a checkpoint and the recorded parents among them. -/
def rollback (tree : Tree) (checkpoint : Checkpoint) : Tree :=
  if tree.size ≤ checkpoint.size ∨ checkpoint.size = 0 then tree
  else { entries := (tree.entries.take checkpoint.size).map (Entry.release checkpoint.size) }

end SelectTree.Tree
