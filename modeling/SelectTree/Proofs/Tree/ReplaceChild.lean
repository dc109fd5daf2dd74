/-
Module: SelectTree.Proofs.Tree.ReplaceChild
Purpose: a child is replaced where the children of a node first list it, or not at all.
Main exports: Tree.replaceChild_of_absent, Tree.replaceChild_of_first, Tree.replaces_first

The tree need not be in order: children may occur several times, and recorded parents may be wrong.
-/
import SelectTree.Proofs.Node.Exchange
import SelectTree.Proofs.Tree.Command

namespace SelectTree

/-- A field for children refuses exactly the classes that it does not accept. -/
theorem FieldDescriptor.checkClass_of_accepts {field : FieldDescriptor}
    {demanded found : NodeClass} (holdsChildren : field.type.accepts? = some demanded) :
    field.checkClass found =
      if demanded.accepts found then .ok ()
      else .error (.typeMismatch field.name demanded found) := by
  rw [checkClass, holdsChildren]

theorem Node.exists_field_of_fieldOf? {node : Node} {child : NodeId} {index : Nat}
    (found : node.fieldOf? child = some index) :
    ∃ field demanded, node.fields[index]? = some field ∧
      field.type.accepts? = some demanded ∧ (field, child) ∈ node.placements := by
  obtain ⟨field, before, after, atIndex, placements, -⟩ := node.placements_replaceIn child found
  have placed : (field, child) ∈ node.placements := by simp [placements]
  obtain ⟨demanded, holdsChildren⟩ := Node.exists_accepts?_of_placement placed
  exact ⟨field, demanded, atIndex, holdsChildren, placed⟩

/-- What the field of the first occurrence says about another child. -/
theorem Node.rejects_iff {node : Node} {child : NodeId} {index : Nat} {field : FieldDescriptor}
    {demanded found : NodeClass} {error : TreeError} (first : node.firstField? child = some index)
    (atIndex : node.fields[index]? = some field)
    (holdsChildren : field.type.accepts? = some demanded) :
    (∃ index field demanded, node.firstField? child = some index ∧
      node.fields[index]? = some field ∧ field.type.accepts? = some demanded ∧
      demanded.accepts found = false ∧ error = .typeMismatch field.name demanded found) ↔
    demanded.accepts found = false ∧ error = .typeMismatch field.name demanded found := by
  simp [first, atIndex, holdsChildren]

namespace Tree

section Present

variable {tree : Tree} {parent old new : NodeId} {node oldNode newNode : Node}
  (atParent : tree.node? parent = some node) (atOld : tree.node? old = some oldNode)
  (atNew : tree.node? new = some newNode) (oldNotRoot : oldNode.nodeClass ≠ .root)
  (newNotRoot : newNode.nodeClass ≠ .root)

include atParent atOld atNew oldNotRoot newNotRoot

theorem replaceChild_of_absent (absent : node.fieldOf? old = none) :
    tree.replaceChild parent old new = .ok none := by
  simp [replaceChild, require, atParent, atOld, atNew, oldNotRoot, newNotRoot, absent, bind,
    Except.bind, pure, Except.pure]

theorem replaceChild_of_first {index : Nat} {field : FieldDescriptor}
    (first : node.fieldOf? old = some index) (atIndex : node.fields[index]? = some field) :
    tree.replaceChild parent old new =
      (field.checkClass newNode.nodeClass).map fun _ =>
        some (tree.setNode parent (node.replaceIn index old new)) := by
  cases checked : field.checkClass newNode.nodeClass <;>
    simp [replaceChild, require, atParent, atOld, atNew, oldNotRoot, newNotRoot, first, atIndex,
      checked, bind, Except.bind, pure, Except.pure, Except.map]

/-- A replacement finds nothing, is refused by the field of the first occurrence, or is made
there. -/
theorem replaceChild_trichotomy :
    (old ∉ node.children ∧ Command.replaceChild parent old new tree = .ok false tree) ∨
    ∃ index field demanded, node.fieldOf? old = some index ∧
      node.fields[index]? = some field ∧ field.type.accepts? = some demanded ∧
      Command.replaceChild parent old new tree =
        if demanded.accepts newNode.nodeClass then
          .ok true (tree.setNode parent (node.replaceIn index old new))
        else .error (.typeMismatch field.name demanded newNode.nodeClass) tree := by
  rw [Command.replaceChild_apply]
  cases first : node.fieldOf? old with
  | none =>
      rw [replaceChild_of_absent atParent atOld atNew oldNotRoot newNotRoot first]
      rw [Node.fieldOf?_eq_firstField?, Node.firstField?_eq_none_iff] at first
      exact .inl ⟨first, rfl⟩
  | some index =>
      obtain ⟨field, demanded, atIndex, holdsChildren, -⟩ := Node.exists_field_of_fieldOf? first
      rw [replaceChild_of_first atParent atOld atNew oldNotRoot newNotRoot first atIndex,
        FieldDescriptor.checkClass_of_accepts holdsChildren]
      refine .inr ⟨index, field, demanded, rfl, atIndex, holdsChildren, ?_⟩
      cases demanded.accepts newNode.nodeClass <;> rfl

/-- A child is replaced exactly if it is among the children of a node, and if the field that holds
its first occurrence accepts the other one.  The children afterwards are those before with the first
occurrence replaced; all other places of the node, all other nodes and all recorded parents are the
same.  Where the child is not replaced, nothing is changed. -/
theorem replaces_first :
    (∀ after, Command.replaceChild parent old new tree = .ok false after ↔
      old ∉ node.children ∧ after = tree) ∧
    (∀ after, Command.replaceChild parent old new tree = .ok true after →
      ∃ index changed, node.firstField? old = some index ∧
        Node.Exchanged index old new node changed ∧
        changed.children = node.children.replace old new ∧
        (∀ id, after.node? id = if id = parent then some changed else tree.node? id) ∧
        ∀ id, after.parent? id = tree.parent? id) ∧
    ∀ error after, Command.replaceChild parent old new tree = .error error after ↔
      after = tree ∧ ∃ index field demanded, node.firstField? old = some index ∧
        node.fields[index]? = some field ∧ field.type.accepts? = some demanded ∧
        demanded.accepts newNode.nodeClass = false ∧
        error = .typeMismatch field.name demanded newNode.nodeClass := by
  rcases replaceChild_trichotomy atParent atOld atNew oldNotRoot newNotRoot with
    ⟨absent, answer⟩ | ⟨index, field, demanded, first, atIndex, holdsChildren, answer⟩
  · have noFirst := Node.firstField?_eq_none_iff.2 absent
    rw [answer]
    refine ⟨fun after => ?_, nofun, fun error after => ?_⟩
    · constructor
      · rintro ⟨⟩
        exact ⟨absent, rfl⟩
      · rintro ⟨-, rfl⟩
        rfl
    · constructor
      · nofun
      · rintro ⟨-, index, field, demanded, first, -⟩
        rw [noFirst] at first
        cases first
  · have occurs : old ∈ node.children := by
      by_contra absent
      rw [← Node.firstField?_eq_none_iff, ← Node.fieldOf?_eq_firstField?, first] at absent
      cases absent
    have exchanged := Node.exchanged_replaceIn new first
    have children := Node.children_replaceIn new first
    rw [Node.fieldOf?_eq_firstField?] at first
    simp only [answer, Node.rejects_iff first atIndex holdsChildren]
    cases accepted : demanded.accepts newNode.nodeClass with
    | false =>
        refine ⟨fun after => ⟨nofun, fun unchanged => absurd occurs unchanged.1⟩, nofun,
          fun error after => ?_⟩
        constructor
        · rintro ⟨⟩
          exact ⟨rfl, rfl, rfl⟩
        · rintro ⟨rfl, -, rfl⟩
          rfl
    | true =>
        refine ⟨fun after => ⟨nofun, fun unchanged => absurd occurs unchanged.1⟩, ?_,
          fun error after => ⟨nofun, ?_⟩⟩
        · rintro after ⟨⟩
          exact ⟨index, node.replaceIn index old new, first, exchanged, children,
            fun id => node?_setNode _ _ _ _ (has_of_node? atParent),
            fun id => parent?_setNode _ _ _ _⟩
        · rintro ⟨-, refused, -⟩
          cases refused

end Present

/-- A condition that holds the first column as its operand and as its last value, behind an empty
place and the second column. -/
def strewn : Tree :=
  { entries := #[
      { node := .root none, parent := none },
      { node := .column .null, parent := some ⟨3⟩ },
      { node := .column .null, parent := none },
      { node := .condition (.inList (some ⟨1⟩) false [none, some ⟨2⟩, some ⟨1⟩]), parent := none },
      { node := .condition (.not none), parent := none }] }

/-- The operand is the first occurrence of the first column, the values keep it.  The operand
refuses a condition, and a condition is not there to be replaced. -/
theorem replaces_first_strewn :
    (∃ after, Command.replaceChild ⟨3⟩ ⟨1⟩ ⟨2⟩ strewn = .ok true after ∧
      after.children? ⟨3⟩ = some [⟨2⟩, ⟨2⟩, ⟨1⟩] ∧ after.parent? ⟨1⟩ = some ⟨3⟩) ∧
    Command.replaceChild ⟨3⟩ ⟨4⟩ ⟨2⟩ strewn = .ok false strewn ∧
    Command.replaceChild ⟨3⟩ ⟨1⟩ ⟨4⟩ strewn =
      .error (.typeMismatch "column" .column .condition) strewn := by
  have atParent : strewn.node? ⟨3⟩ =
      some (.condition (.inList (some ⟨1⟩) false [none, some ⟨2⟩, some ⟨1⟩])) := rfl
  have atFirst : strewn.node? ⟨1⟩ = some (.column .null) := rfl
  have atSecond : strewn.node? ⟨2⟩ = some (.column .null) := rfl
  refine ⟨⟨_, rfl, ?_⟩, ?_, ?_⟩
  · obtain ⟨-, replaced, -⟩ :=
      replaces_first atParent atFirst atSecond (by decide) (by decide)
    obtain ⟨_, changed, -, -, children, nodes, parents⟩ := replaced _ rfl
    refine ⟨?_, parents ⟨1⟩⟩
    rw [children?, nodes, if_pos rfl, Option.map_some, children]
    rfl
  · exact ((replaces_first atParent rfl rfl (by decide) (by decide)).1 strewn).2 ⟨by decide, rfl⟩
  · exact ((replaces_first atParent rfl rfl (by decide) (by decide)).2.2 _ strewn).2
      ⟨rfl, 0, ⟨"column", .child .column⟩, .column, by decide, rfl, rfl, rfl, rfl⟩

end Tree

end SelectTree
