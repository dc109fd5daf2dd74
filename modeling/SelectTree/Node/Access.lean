/-
Module: SelectTree.Node.Access
Purpose: the fields of a node by number, and its children.
Main exports: FieldContent, Node.field, Node.setField, Node.placements, Node.childIds,
  Node.children, Node.replaceFirst
-/
import SelectTree.Node

namespace SelectTree

/-- What the tree operations see of a field. -/
inductive FieldContent where
  | child (slot : Slot)
  | childList (slots : List Slot)
  /-- A value, or no field at all. -/
  | value
deriving Repr, Inhabited, DecidableEq

namespace FieldValue

/-- The children in a field; a plain value shows nothing. -/
def content : FieldValue → FieldContent
  | .child slot => .child slot
  | .children slots => .childList slots
  | _ => .value

/-- Puts children in the place of children of the same shape.  Everything else stays. -/
def write (value : FieldValue) (content : FieldContent) : FieldValue :=
  match value, content with
  | .child _, .child slot => .child slot
  | .children _, .childList slots => .children slots
  | value, _ => value

/-- The field holds exactly this child and is not a list. -/
def isChild (id : NodeId) : FieldValue → Bool
  | .child slot => slot == some id
  | _ => false

/-- The field is a list with this child in it. -/
def listsChild (id : NodeId) : FieldValue → Bool
  | .children slots => slots.contains (some id)
  | _ => false

/-- The contents with the first occurrence of a child replaced. -/
def replaceFirst (old new : NodeId) : FieldValue → FieldValue
  | .child slot => .child (if slot = some old then some new else slot)
  | .children slots => .children (slots.replace (some old) (some new))
  | value => value

end FieldValue

namespace Node

/-- The node with other contents of its fields; contents of undeclared types change nothing. -/
def withValues (node : Node) (values : List FieldValue) : Node :=
  (ofValues? node.kind values).getD node

/-- The field of the given number. -/
def field (node : Node) (index : Nat) : FieldContent :=
  (node.values[index]?.map FieldValue.content).getD .value

/-- The node with other children in the field of the given number. -/
def setField (node : Node) (index : Nat) (content : FieldContent) : Node :=
  node.withValues (node.values.modify index (·.write content))

/-- Every child together with the field that holds it, in the order of the declaration. -/
def placements (node : Node) : List (FieldDescriptor × NodeId) :=
  (node.fields.zip node.values).flatMap fun (field, value) =>
    value.childIds.map fun child => (field, child)

/-- Every child in the order of the declaration. -/
def childIds (node : Node) : List NodeId :=
  node.values.flatMap FieldValue.childIds

/-- Every child, those in fields for one child first, then those in lists. -/
def children (node : Node) : List NodeId :=
  (node.values.flatMap fun value =>
      match value with
      | .child slot => slot.toList
      | _ => []) ++
    node.values.flatMap fun value =>
      match value with
      | .children slots => slots.filterMap id
      | _ => []

/-- The number of the field that holds a child: fields for one child are searched first, then
lists. -/
def fieldOf? (node : Node) (child : NodeId) : Option Nat :=
  (node.values.findIdx? (·.isChild child)).or (node.values.findIdx? (·.listsChild child))

/-- The node with the first occurrence of a child in the field of the given number replaced. -/
def replaceIn (node : Node) (index : Nat) (old new : NodeId) : Node :=
  node.withValues (node.values.modify index (·.replaceFirst old new))

end Node

end SelectTree
