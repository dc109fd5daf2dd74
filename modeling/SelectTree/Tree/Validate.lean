/-
Module: SelectTree.Tree.Validate
Purpose: what is refused of trees, and checking that nodes may be children and that recorded parents
  and classes of children agree with the fields.
Main exports: TreeError, FieldDescriptor.checkClass, Tree.require, Tree.checkPlacements,
  Tree.validate
-/
import SelectTree.Tree

namespace SelectTree

/-- Why a tree operation is refused. -/
inductive TreeError where
  | unknownNode (id : NodeId)
  | childNotFound (parent child : NodeId)
  | typeMismatch (field : String) (expected found : NodeClass)
  | rootAsChild
  | alreadyAttached (id : NodeId)
  | cycle (parent child : NodeId)
deriving Repr, Inhabited, DecidableEq

/-- The wording of a refusal. -/
def TreeError.message : TreeError → String
  | .unknownNode id => s!"node {id.render} does not exist in this tree"
  | .childNotFound parent child =>
      s!"node {child.render} is not a child of node {parent.render}"
  | .typeMismatch field expected found =>
      s!"field `{field}` accepts {expected.name} nodes, found {found.name}"
  | .rootAsChild => "the root node cannot be used as a child"
  | .alreadyAttached id => s!"node {id.render} is already attached to a parent"
  | .cycle parent child =>
      s!"attaching node {child.render} under node {parent.render} would create a cycle"

/-- A field admits a node of this class. -/
def FieldDescriptor.checkClass (field : FieldDescriptor) (found : NodeClass) :
    Except TreeError Unit :=
  match field.type.accepts? with
  | none => .ok ()
  | some expected =>
      if expected.accepts found then .ok ()
      else .error (.typeMismatch field.name expected found)

namespace Tree

/-- The node of the given number, which must exist. -/
def require (tree : Tree) (id : NodeId) : Except TreeError Node :=
  match tree.node? id with
  | some node => .ok node
  | none => .error (.unknownNode id)

/-- Checks the children of a node to be added, one after the other: each must exist, fit its
field, have no parent, and not have occurred before. -/
def checkPlacements (tree : Tree) :
    List NodeId → List (FieldDescriptor × NodeId) → Except TreeError Unit
  | _, [] => .ok ()
  | seen, (field, child) :: placements => do
      let found := (← tree.require child).nodeClass
      if found = .root then throw .rootAsChild
      field.checkClass found
      if (tree.parent? child).isSome || seen.contains child then
        throw (.alreadyAttached child)
      tree.checkPlacements (child :: seen) placements

/-- Checks that each child of a node exists, records the node as its parent, and fits its
field. -/
def checkNode (tree : Tree) (id : NodeId) : List (FieldDescriptor × NodeId) → Except TreeError Unit
  | [] => .ok ()
  | (field, child) :: placements => do
      let node ← tree.require child
      if tree.parent? child ≠ some id then throw (.childNotFound id child)
      field.checkClass node.nodeClass
      tree.checkNode id placements

/-- Checks a node and everything below it down to a depth, parents before their children. -/
def validateDownTo (tree : Tree) : Nat → NodeId → Except TreeError Unit
  | 0, _ => .ok ()
  | depth + 1, id => do
      let node ← tree.require id
      tree.checkNode id node.placements
      node.children.forM (tree.validateDownTo depth)

/-- Checks a node and everything below it, and reports what is wrong first.  As long as nothing
is wrong, no way down from a node without parent is longer than the tree has nodes. -/
def validate (tree : Tree) (id : NodeId) : Except TreeError Unit :=
  tree.validateDownTo (tree.size + 1) id

end Tree

end SelectTree
