/-
Module: SelectTree.Proofs.Tree.Fitting
Purpose: trees whose children exist and fit the fields that hold them, whatever the recorded
  parents are.
Main exports: Tree.Fitting, Tree.Fitting.attach, Tree.Fitting.exchange
-/
import SelectTree.Proofs.Node.Placement
import SelectTree.Proofs.Tree.Lookup

namespace SelectTree

namespace Tree

/-- Every child exists and fits the field that holds it. -/
def Fitting (tree : Tree) : Prop :=
  ∀ holder node field child, tree.node? holder = some node → (field, child) ∈ node.placements →
    ∃ found, tree.node? child = some found ∧ field.Fits found.nodeClass

namespace Fitting

variable {tree : Tree} (fitting : tree.Fitting)

include fitting

/-- A child exists and is not a root. -/
theorem exists_node?_of_mem {holder child : NodeId} {node : Node}
    (found : tree.node? holder = some node) (held : child ∈ node.childIds) :
    ∃ childNode, tree.node? child = some childNode ∧ childNode.nodeClass ≠ .root := by
  obtain ⟨field, placed⟩ := Node.exists_placement held
  obtain ⟨childNode, atChild, fits⟩ := fitting holder node field child found placed
  exact ⟨childNode, atChild, fits.ne_root⟩

theorem has_of_mem {holder child : NodeId} {node : Node}
    (found : tree.node? holder = some node) (held : child ∈ node.childIds) :
    tree.Has child := by
  obtain ⟨childNode, atChild, _⟩ := fitting.exists_node?_of_mem found held
  exact has_of_node? atChild

/-- Recorded parents do not matter. -/
theorem of_node?_eq {other : Tree} (same : ∀ id, other.node? id = tree.node? id) :
    other.Fitting := by
  intro holder node field child found placed
  rw [same] at found
  obtain ⟨childNode, atChild, fits⟩ := fitting holder node field child found placed
  exact ⟨childNode, by rw [same, atChild], fits⟩

/-- A node may be added if its own children fit. -/
theorem attach {node : Node}
    (fits : ∀ field child, (field, child) ∈ node.placements →
      ∃ found, tree.node? child = some found ∧ field.Fits found.nodeClass) :
    (tree.attach node).Fitting := by
  have keeps : ∀ {id found}, tree.node? id = some found →
      (tree.attach node).node? id = some found := by
    intro id found atId
    rw [node?_attach_of_has tree node (has_of_node? atId), atId]
  intro holder holderNode field child found placed
  rw [node?_attach] at found
  split at found
  · cases found
    obtain ⟨childNode, atChild, fit⟩ := fits field child placed
    exact ⟨childNode, keeps atChild, fit⟩
  · obtain ⟨childNode, atChild, fit⟩ := fitting holder holderNode field child found placed
    exact ⟨childNode, keeps atChild, fit⟩

/-- One child of a node may be exchanged for another one that fits. -/
theorem exchange {result : Tree} {holder old new : NodeId} {node changed newNode : Node}
    {field : FieldDescriptor} {before after : List (FieldDescriptor × NodeId)}
    (atHolder : tree.node? holder = some node) (atNew : tree.node? new = some newNode)
    (fits : field.Fits newNode.nodeClass) (sameKind : changed.kind = node.kind)
    (placements : node.placements = before ++ (field, old) :: after)
    (placementsChanged : changed.placements = before ++ (field, new) :: after)
    (lookup : ∀ id, result.node? id = if id = holder then some changed else tree.node? id) :
    result.Fitting := by
  have keepsClass : ∀ {id found}, tree.node? id = some found →
      ∃ now, result.node? id = some now ∧ now.nodeClass = found.nodeClass := by
    intro id found atId
    rw [lookup]
    split
    · next same =>
        rw [same, atHolder] at atId
        cases atId
        exact ⟨changed, rfl, by rw [Node.nodeClass, Node.nodeClass, sameKind]⟩
    · exact ⟨found, atId, rfl⟩
  intro other otherNode placedIn child found placed
  suffices ∃ childNode, tree.node? child = some childNode ∧
      placedIn.Fits childNode.nodeClass by
    obtain ⟨childNode, atChild, fit⟩ := this
    obtain ⟨now, atNow, sameClass⟩ := keepsClass atChild
    exact ⟨now, atNow, sameClass ▸ fit⟩
  rw [lookup] at found
  split at found
  · cases found
    have unchanged : ∀ placement ∈ before ++ after,
        ∃ childNode, tree.node? placement.2 = some childNode ∧
          placement.1.Fits childNode.nodeClass := by
      intro placement member
      apply fitting holder node placement.1 placement.2 atHolder
      rw [placements]
      rcases List.mem_append.1 member with front | back
      · exact List.mem_append_left _ front
      · exact List.mem_append_right _ (List.mem_cons_of_mem _ back)
    rw [placementsChanged] at placed
    rcases List.mem_append.1 placed with front | middle
    · exact unchanged _ (List.mem_append_left _ front)
    · rcases List.mem_cons.1 middle with isNew | back
      · cases isNew
        exact ⟨newNode, atNew, fits⟩
      · exact unchanged _ (List.mem_append_right _ back)
  · exact fitting other otherNode placedIn child found placed

end Fitting

end Tree

end SelectTree
