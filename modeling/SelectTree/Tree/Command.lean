/-
Module: SelectTree.Tree.Command
Purpose: the calls that change a tree, as they proceed on it: check after check, write after write.
Main exports: Tree.Command, Command.add, Command.setParent, Command.replaceChild,
  Command.replaceChildAndReparent

A call works on one tree, and nothing is taken back when it is refused: what it has written by then
stays written.  So it is a property of the calls, and not of their type, that a refused call leaves
the tree as it was.
-/
import SelectTree.Tree.Edit

namespace SelectTree.Tree

/-- A call on a tree that is changed in place. -/
abbrev Command (α : Type) := EStateM TreeError Tree α

namespace Command

/-- A check, which only looks at the tree as it is now. -/
def look {α : Type} (check : Tree → Except TreeError α) : Command α := do
  match check (← get) with
  | .ok value => return value
  | .error error => throw error

/-- Checks the children of a node to be added, one after the other. -/
def inspect : List NodeId → List (FieldDescriptor × NodeId) → Command Unit
  | _, [] => return
  | seen, (field, child) :: placements => do
      let found := (← look (·.require child)).nodeClass
      if found = .root then throw .rootAsChild
      look fun _ => field.checkClass found
      if ((← get).parent? child).isSome || seen.contains child then
        throw (.alreadyAttached child)
      inspect (child :: seen) placements

/-- Adds a node and records it as the parent of its children, one after the other. -/
def attach (node : Node) : Command NodeId := do
  let id := (← get).nextId
  modify (·.push node)
  node.childIds.forM fun child => modify (·.recordParent (some id) child)
  return id

/-- Adds a node whose children are nodes of the tree that hang nowhere. -/
def add (node : Node) : Command NodeId := do
  inspect [] node.placements
  attach node

/-- Records another parent. -/
def setParent (id : NodeId) (parent : Option NodeId) : Command Unit := do
  let _ ← look (·.require id)
  if let some above := parent then
    let _ ← look (·.require above)
  modify (·.recordParent parent id)

/-- Looks for a child in fields of one shape, the first of which has the given number.  The first
field that holds the child gets the other one in its place if it admits its class. -/
def exchange (parent old new : NodeId) (node : Node) (found : NodeClass)
    (holds : FieldValue → Bool) : Nat → List (FieldDescriptor × FieldValue) → Command Bool
  | _, [] => return false
  | index, (field, value) :: fields =>
      if holds value then do
        look fun _ => field.checkClass found
        modify (·.setNode parent (node.replaceIn index old new))
        return true
      else exchange parent old new node found holds (index + 1) fields

/-- Puts a node in the place of the first occurrence of a child, and says whether the child
occurs.  Fields for one child are searched before lists. -/
def replaceChild (parent old new : NodeId) : Command Bool := do
  let node ← look (·.require parent)
  let oldNode ← look (·.require old)
  let newNode ← look (·.require new)
  if newNode.nodeClass = .root ∨ oldNode.nodeClass = .root then throw .rootAsChild
  let fields := node.fields.zip node.values
  if ← exchange parent old new node newNode.nodeClass (·.isChild old) 0 fields then
    return true
  exchange parent old new node newNode.nodeClass (·.listsChild old) 0 fields

/-- Puts a node that hangs nowhere in the place of a child, which then hangs nowhere.  Where
recorded parents go round above the parent, the search for the new child among them is given up. -/
def replaceChildAndReparent (parent old new : NodeId) : Command Unit := do
  let _ ← look (·.require new)
  if ((← get).parent? new).isSome then throw (.alreadyAttached new)
  if (← get).isAncestorOrSelf new parent then throw (.cycle parent new)
  if !(← replaceChild parent old new) then throw (.childNotFound parent old)
  modify (·.recordParent (some parent) new)
  modify (·.recordParent none old)

end Command

end SelectTree.Tree
