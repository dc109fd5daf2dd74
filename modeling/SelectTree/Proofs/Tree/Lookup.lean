/-
Module: SelectTree.Proofs.Tree.Lookup
Purpose: what the elementary operations on trees do to the node and to the recorded parent of a
  number.
Main exports: Tree.ext_lookup, Tree.node?_attach, Tree.parent?_attach
-/
import Mathlib.Data.List.Forall2
import SelectTree.Layout
import SelectTree.Tree.Edit

namespace SelectTree

namespace NodeId

/-- A node is known by its index. -/
theorem ext_index {left right : NodeId} (same : left.index = right.index) : left = right := by
  cases left
  cases right
  simp_all

end NodeId

/-- An action of two parts gives a result exactly if both do. -/
theorem bind_eq_ok_iff {ε α β : Type} {first : Except ε α} {next : α → Except ε β} {result : β} :
    (first >>= next) = .ok result ↔ ∃ value, first = .ok value ∧ next value = .ok result := by
  cases first <;> simp [bind, Except.bind]

theorem map_eq_ok_iff {ε α β : Type} {convert : α → β} {answer : Except ε α} {result : β} :
    answer.map convert = .ok result ↔ ∃ value, answer = .ok value ∧ convert value = result := by
  cases answer <;> simp [Except.map]

/-- A check in front of an action lets it run exactly if there is nothing to refuse. -/
theorem refuse_eq_ok_iff {ε α β : Type} {refused : Prop} [Decidable refused] {error : ε}
    {next : β → Except ε α} {rest : Except ε α} {result : α} :
    (if refused then throw error >>= next else rest) = .ok result ↔
      ¬ refused ∧ rest = .ok result := by
  by_cases refused <;> simp [*, bind, Except.bind, throw, throwThe, MonadExceptOf.throw]

/-! In lists that correspond one to one everything has its counterpart. -/

theorem exists_right_of_mem {α β : Type} {related : α → β → Prop} {items : List α}
    {others : List β} (correspond : List.Forall₂ related items others) {item : α}
    (member : item ∈ items) : ∃ other ∈ others, related item other := by
  induction correspond with
  | nil => cases member
  | cons first _ ih =>
      rcases List.mem_cons.1 member with rfl | later
      · exact ⟨_, List.mem_cons_self, first⟩
      · obtain ⟨other, listed, isRelated⟩ := ih later
        exact ⟨other, List.mem_cons_of_mem _ listed, isRelated⟩

theorem exists_left_of_mem {α β : Type} {related : α → β → Prop} {items : List α}
    {others : List β} (correspond : List.Forall₂ related items others) {other : β}
    (member : other ∈ others) : ∃ item ∈ items, related item other := by
  have flipped : List.Forall₂ (flip related) others items := correspond.flip
  exact exists_right_of_mem flipped member

namespace Tree

/-- The number is one of a node of the tree. -/
def Has (tree : Tree) (id : NodeId) : Prop :=
  id.index < tree.size

/-- A number is unknown exactly if it is not below the size of the tree. -/
theorem node?_eq_none_iff {tree : Tree} {id : NodeId} :
    tree.node? id = none ↔ tree.size ≤ id.index := by
  simp [node?, size]

theorem isSome_node?_iff {tree : Tree} {id : NodeId} :
    (tree.node? id).isSome ↔ tree.Has id := by
  simp [node?, Has, size]

theorem has_of_node? {tree : Tree} {id : NodeId} {node : Node}
    (found : tree.node? id = some node) : tree.Has id :=
  isSome_node?_iff.1 (by simp [found])

theorem exists_node?_of_has {tree : Tree} {id : NodeId} (present : tree.Has id) :
    ∃ node, tree.node? id = some node :=
  Option.isSome_iff_exists.1 (isSome_node?_iff.2 present)

theorem has_of_parent? {tree : Tree} {id parent : NodeId}
    (recorded : tree.parent? id = some parent) : tree.Has id := by
  simp only [parent?, Option.bind_eq_some_iff] at recorded
  obtain ⟨entry, found, _⟩ := recorded
  exact (Array.getElem?_eq_some_iff.1 found).1

/-- What is not there has no parent. -/
theorem parent?_eq_none_of_size_le {tree : Tree} {id : NodeId} (absent : tree.size ≤ id.index) :
    tree.parent? id = none := by
  have missing : tree.entries[id.index]? = none := Array.getElem?_eq_none absent
  simp [parent?, missing]

/-- Two trees with the same nodes and the same recorded parents are the same. -/
theorem ext_lookup {left right : Tree}
    (nodes : ∀ id, left.node? id = right.node? id)
    (parents : ∀ id, left.parent? id = right.parent? id) : left = right := by
  have entries : left.entries = right.entries := by
    refine Array.ext_getElem? fun index => ?_
    have sameNode := nodes { index }
    have sameParent := parents { index }
    simp only [node?, parent?] at sameNode sameParent
    cases leftEntry : left.entries[index]? with
    | none =>
        cases rightEntry : right.entries[index]? with
        | none => rfl
        | some entry => simp [leftEntry, rightEntry] at sameNode
    | some entry =>
        cases rightEntry : right.entries[index]? with
        | none => simp [leftEntry, rightEntry] at sameNode
        | some other =>
            simp only [leftEntry, rightEntry, Option.map_some, Option.some.injEq,
              Option.bind_some] at sameNode sameParent
            cases entry
            cases other
            simp_all
  cases left
  cases right
  simp_all

/-- A node that is required is found, or the request is refused. -/
theorem require_eq_ok_iff {tree : Tree} {id : NodeId} {node : Node} :
    tree.require id = .ok node ↔ tree.node? id = some node := by
  unfold require
  cases tree.node? id <;> simp

/-! ### Recording parents and exchanging nodes -/

section Record

variable (tree : Tree) (parent : Option NodeId) (child id : NodeId)

@[simp] theorem size_recordParent : (tree.recordParent parent child).size = tree.size := by
  simp [recordParent, size]

/-- Recording a parent changes no node. -/
@[simp] theorem node?_recordParent :
    (tree.recordParent parent child).node? id = tree.node? id := by
  simp only [recordParent, node?, Array.getElem?_modify]
  split <;> simp [Function.comp_def]

theorem parent?_recordParent_self (present : tree.Has child) :
    (tree.recordParent parent child).parent? child = parent := by
  obtain ⟨entry, found⟩ : ∃ entry, tree.entries[child.index]? = some entry :=
    ⟨_, Array.getElem?_eq_getElem present⟩
  simp [recordParent, parent?, Array.getElem?_modify, found]

theorem parent?_recordParent_of_ne {child id : NodeId} (other : id ≠ child) :
    (tree.recordParent parent child).parent? id = tree.parent? id := by
  have differ : child.index ≠ id.index := fun same => other (NodeId.ext_index same.symm)
  simp [recordParent, parent?, Array.getElem?_modify, differ]

/-- Of a child that is there, the recorded parent is the new one; the others keep theirs. -/
theorem parent?_recordParent (present : tree.Has child) :
    (tree.recordParent parent child).parent? id =
      if id = child then parent else tree.parent? id := by
  split
  · next same => rw [same, parent?_recordParent_self tree parent child present]
  · next other => exact parent?_recordParent_of_ne tree parent other

end Record

/-- A parent that is recorded by hand is a node. -/
theorem setParent_eq_ok {tree changed : Tree} {id : NodeId} {parent : Option NodeId}
    (outcome : tree.setParent id parent = .ok changed) :
    (∀ above, parent = some above → tree.Has above) ∧ changed = tree.recordParent parent id := by
  cases parent with
  | none =>
      simp only [setParent, bind_eq_ok_iff] at outcome
      obtain ⟨_, _, ⟨⟩⟩ := outcome
      exact ⟨nofun, rfl⟩
  | some above =>
      simp only [setParent, bind_eq_ok_iff] at outcome
      obtain ⟨_, _, ⟨⟩, known, ⟨⟩⟩ := outcome
      constructor
      · rintro _ ⟨⟩
        cases found : tree.require above with
        | error _ =>
            rw [found] at known
            cases known
        | ok node => exact has_of_node? (require_eq_ok_iff.1 found)
      · rfl

section SetNode

variable (tree : Tree) (target : NodeId) (node : Node) (id : NodeId)

@[simp] theorem size_setNode : (tree.setNode target node).size = tree.size := by
  simp [setNode, size]

@[simp] theorem parent?_setNode : (tree.setNode target node).parent? id = tree.parent? id := by
  simp only [setNode, parent?, Array.getElem?_modify]
  split
  · cases tree.entries[id.index]? <;> rfl
  · rfl

/-- Exactly the node that is set has changed. -/
theorem node?_setNode (present : tree.Has target) :
    (tree.setNode target node).node? id =
      if id = target then some node else tree.node? id := by
  split
  · next same =>
      obtain ⟨entry, found⟩ : ∃ entry, tree.entries[target.index]? = some entry :=
        ⟨_, Array.getElem?_eq_getElem present⟩
      simp [setNode, node?, Array.getElem?_modify, same, found]
  · next other =>
      have differ : target.index ≠ id.index := fun same => other (NodeId.ext_index same.symm)
      simp [setNode, node?, Array.getElem?_modify, differ]

end SetNode

/-! ### Adding nodes -/

section Push

variable (tree : Tree) (node : Node) (id : NodeId)

@[simp] theorem size_push : (tree.push node).size = tree.size + 1 := by
  simp [push, size]

/-- A pushed node is found under the next number. -/
theorem node?_push :
    (tree.push node).node? id = if id = tree.nextId then some node else tree.node? id := by
  simp only [push, node?, Array.getElem?_push]
  by_cases last : id.index = tree.size
  · have same : id = tree.nextId := NodeId.ext_index last
    simp [same, nextId, size]
  · have differ : id ≠ tree.nextId := fun same => last (by simp [same, nextId])
    simp_all [size]

@[simp] theorem parent?_push : (tree.push node).parent? id = tree.parent? id := by
  simp only [push, parent?, Array.getElem?_push]
  by_cases last : id.index = tree.entries.size
  · simp [last]
  · simp [last]

end Push

/-- Recording one parent for several nodes. -/
theorem size_foldl_recordParent (parent : Option NodeId) (children : List NodeId) (tree : Tree) :
    (children.foldl (fun grown child => grown.recordParent parent child) tree).size =
      tree.size := by
  induction children generalizing tree with
  | nil => rfl
  | cons child children ih => simp [ih]

/-- Recording parents one after the other changes no node. -/
theorem node?_foldl_recordParent (parent : Option NodeId) (children : List NodeId) (tree : Tree)
    (id : NodeId) :
    (children.foldl (fun grown child => grown.recordParent parent child) tree).node? id =
      tree.node? id := by
  induction children generalizing tree with
  | nil => rfl
  | cons child children ih => simp [ih]

/-- Recording one parent for several children changes just the parents of these children. -/
theorem parent?_foldl_recordParent (parent : Option NodeId) (children : List NodeId)
    (tree : Tree) (id : NodeId) (present : tree.Has id) :
    (children.foldl (fun grown child => grown.recordParent parent child) tree).parent? id =
      if id ∈ children then parent else tree.parent? id := by
  induction children generalizing tree with
  | nil => simp
  | cons child children ih =>
      have still : (tree.recordParent parent child).Has id := by
        simpa [Has] using present
      rw [List.foldl_cons, ih _ still]
      by_cases same : id = child
      · subst same
        simp [parent?_recordParent_self tree parent id present]
      · simp [same, parent?_recordParent_of_ne tree parent same]

section Attach

variable (tree : Tree) (node : Node) (id : NodeId)

/-- An attached node takes one number. -/
@[simp] theorem size_attach : (tree.attach node).size = tree.size + 1 := by
  simp [attach, size_foldl_recordParent]

/-- An attached node is found under the number that was next, and every other one as before. -/
theorem node?_attach :
    (tree.attach node).node? id = if id = tree.nextId then some node else tree.node? id := by
  simp [attach, node?_foldl_recordParent, node?_push]

@[simp] theorem node?_attach_nextId : (tree.attach node).node? tree.nextId = some node := by
  simp [node?_attach]

theorem node?_attach_of_has {id : NodeId} (present : tree.Has id) :
    (tree.attach node).node? id = tree.node? id := by
  have old : id ≠ tree.nextId := by
    intro same
    simp [Has, same, nextId] at present
  simp [node?_attach, old]

/-- The children of an attached node have it as their parent. -/
theorem parent?_attach (present : (tree.attach node).Has id) :
    (tree.attach node).parent? id =
      if id ∈ node.childIds then some tree.nextId else tree.parent? id := by
  have pushed : (tree.push node).Has id := by simpa [Has] using present
  simp [attach, parent?_foldl_recordParent _ _ _ _ pushed]

/-- Nothing is lost when a node is attached. -/
theorem has_attach {id : NodeId} (present : tree.Has id) : (tree.attach node).Has id := by
  simp only [Has, size_attach] at present ⊢
  omega

end Attach

@[simp] theorem attachAll_nil (tree : Tree) : tree.attachAll [] = tree := rfl

/-- Nodes may be attached in two goes. -/
theorem attachAll_append (tree : Tree) (first second : List Node) :
    tree.attachAll (first ++ second) = (tree.attachAll first).attachAll second := by
  simp [attachAll]

/-- The last node is attached on top of the others. -/
theorem attachAll_concat (tree : Tree) (nodes : List Node) (node : Node) :
    tree.attachAll (nodes ++ [node]) = (tree.attachAll nodes).attach node := by
  simp [attachAll]

@[simp] theorem size_attachAll (tree : Tree) (nodes : List Node) :
    (tree.attachAll nodes).size = tree.size + nodes.length := by
  induction nodes generalizing tree with
  | nil => rfl
  | cons node nodes ih =>
      have step : tree.attachAll (node :: nodes) = (tree.attach node).attachAll nodes := rfl
      rw [step, ih, size_attach, List.length_cons]
      omega

end Tree

end SelectTree
