/-
Module: SelectTree.Proofs.Node.Rename
Purpose: the contents of a node with other children in the same places.
Main exports: FieldValue.rename, FieldValue.childIds_rename, FieldValue.rename_congr,
  Node.childIds_of_rename, Node.children_of_rename
-/
import SelectTree.Node.Access

namespace SelectTree

namespace FieldValue

/-- The contents with each child exchanged for another one; empty places stay empty. -/
def rename (convert : NodeId → NodeId) : FieldValue → FieldValue
  | .child slot => .child (slot.map convert)
  | .children slots => .children (slots.map (Option.map convert))
  | value => value

theorem childIds_rename (convert : NodeId → NodeId) (value : FieldValue) :
    (value.rename convert).childIds = value.childIds.map convert := by
  cases value with
  | child slot => cases slot <;> rfl
  | children slots => simp [rename, childIds, List.filterMap_map, List.map_filterMap]
  | _ => rfl

/-- Only what becomes of the children matters. -/
theorem rename_congr {one other : NodeId → NodeId} {value : FieldValue}
    (same : ∀ child ∈ value.childIds, one child = other child) :
    value.rename one = value.rename other := by
  cases value with
  | child slot =>
      cases slot with
      | none => rfl
      | some child => simp [rename, same child (by simp [childIds])]
  | children slots =>
      rw [rename, rename]
      congr 1
      apply List.map_congr_left
      intro slot member
      cases slot with
      | none => rfl
      | some child => simp [same child (List.mem_filterMap.2 ⟨some child, member, rfl⟩)]
  | _ => rfl

end FieldValue

namespace Node

section Renamed

variable {node renamed : Node} {convert : NodeId → NodeId}
  (values : renamed.values = node.values.map (FieldValue.rename convert))

include values

theorem childIds_of_rename : renamed.childIds = node.childIds.map convert := by
  rw [childIds, values, childIds, List.flatMap_map, List.map_flatMap]
  exact congrArg (List.flatMap · node.values) (funext (FieldValue.childIds_rename convert))

theorem children_of_rename : renamed.children = node.children.map convert := by
  rw [children, values, children, List.map_append, List.flatMap_map, List.flatMap_map,
    List.map_flatMap, List.map_flatMap]
  congr 2
  · funext value
    cases value with
    | child slot => cases slot <;> rfl
    | _ => rfl
  · funext value
    cases value with
    | children slots => simp [FieldValue.rename, List.filterMap_map, List.map_filterMap]
    | _ => rfl

end Renamed

end Node

end SelectTree
