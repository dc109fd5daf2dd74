/-
Module: SelectTree.Proofs.Tree.Descend
Purpose: the walk that keeps a stack visits what the recursive pre-order lists, wherever there is a
  finite tree below a node.
Main exports: Tree.FiniteBelow, Tree.Preordered, Tree.walk?_eq_some_iff,
  Tree.descendants?_eq_some_iff, Node.declaredChildren, Tree.walks_in_preorder

The walk takes the next node off its stack and puts the children of that node there instead.  The
pre-order is a relation, so that neither a number of steps nor a depth occurs in it.
-/
import SelectTree.Proofs.Tree.Proper

namespace SelectTree

/-! ### The children of a node, field by field -/

/-- The children that are seen in a field. -/
def FieldContent.childIds : FieldContent → List NodeId
  | .child slot => slot.toList
  | .childList slots => slots.filterMap id
  | .value => []

theorem FieldValue.childIds_content (value : FieldValue) :
    value.content.childIds = value.childIds := by
  cases value <;> rfl

/-- The children in all fields, one field after the other. -/
def Node.declaredChildren (node : Node) : List NodeId :=
  (List.range node.fields.length).flatMap fun index => (node.field index).childIds

/-- Looking at one field after the other gives the children of a node in the order of the tree. -/
theorem Node.declaredChildren_eq (node : Node) : node.declaredChildren = node.childIds := by
  have fields : node.fields.length = node.values.length := node.values_typed.length_eq
  have contents : node.values.map FieldValue.content =
      (List.range node.values.length).map node.field := by
    apply List.ext_getElem
    · simp
    · intro index inside _
      have bound : index < node.values.length := by simpa using inside
      simp [Node.field, bound]
  calc node.declaredChildren
      = ((List.range node.values.length).map node.field).flatMap FieldContent.childIds := by
        rw [declaredChildren, fields, List.flatMap_map]
    _ = node.values.flatMap fun value => value.content.childIds := by
        rw [← contents, List.flatMap_map]
    _ = node.childIds := by
        rw [childIds, funext FieldValue.childIds_content]

namespace Tree

variable {tree : Tree}

/-! ### Finite trees and their pre-orders -/

/-- Below the node there is a finite tree: the node is there, and below each child that it holds
there is a finite tree. -/
inductive FiniteBelow (tree : Tree) : NodeId → Prop where
  | node {id : NodeId} : tree.Has id →
      (∀ child, tree.Holds id child → FiniteBelow tree child) → FiniteBelow tree id

mutual

/-- The recursive pre-order of a node: the node, then the pre-orders of its children in order. -/
inductive Preordered (tree : Tree) : NodeId → List NodeId → Prop where
  | node {id : NodeId} {children below : List NodeId} :
      tree.children? id = some children → PreorderedEach tree children below →
      Preordered tree id (id :: below)

/-- The recursive pre-orders of several nodes, one behind the other. -/
inductive PreorderedEach (tree : Tree) : List NodeId → List NodeId → Prop where
  | nil : PreorderedEach tree [] []
  | cons {id : NodeId} {ids order orders : List NodeId} :
      Preordered tree id order → PreorderedEach tree ids orders →
      PreorderedEach tree (id :: ids) (order ++ orders)

end

theorem children?_eq_some_iff {id : NodeId} {children : List NodeId} :
    tree.children? id = some children ↔
      ∃ node, tree.node? id = some node ∧ node.children = children :=
  Option.map_eq_some_iff

/-- The pre-order below several nodes is that below the first ones, then that below the others. -/
theorem PreorderedEach.append_iff {ids others order : List NodeId} :
    tree.PreorderedEach (ids ++ others) order ↔
      ∃ front back, tree.PreorderedEach ids front ∧ tree.PreorderedEach others back ∧
        order = front ++ back := by
  induction ids generalizing order with
  | nil =>
      constructor
      · intro listed
        exact ⟨[], order, .nil, listed, rfl⟩
      · rintro ⟨_, back, ⟨⟩, listed, rfl⟩
        exact listed
  | cons id ids ih =>
      constructor
      · rintro (_ | ⟨first, listed⟩)
        obtain ⟨front, back, one, two, rfl⟩ := ih.1 listed
        exact ⟨_, back, .cons first one, two, (List.append_assoc ..).symm⟩
      · rintro ⟨_, back, _ | ⟨first, one⟩, two, rfl⟩
        rw [List.append_assoc]
        exact .cons first (ih.2 ⟨_, back, one, two, rfl⟩)

/-! ### The relation and the recursion on the depth -/

mutual

/-- A pre-order is found at some depth by the function that counts levels down. -/
theorem Preordered.exists_depth {id : NodeId} {order : List NodeId} :
    tree.Preordered id order → ∃ depth, tree.preorder? depth id = some order
  | .node found each => by
      obtain ⟨depth, orders, listed, same⟩ := each.exists_depth
      obtain ⟨node, atId, isChildren⟩ := children?_eq_some_iff.1 found
      subst isChildren same
      exact ⟨depth + 1, preorder?_succ.2 ⟨node, orders, atId, listed, rfl⟩⟩

/-- Of finitely many depths, the greatest serves for all nodes of a list. -/
theorem PreorderedEach.exists_depth {ids order : List NodeId} :
    tree.PreorderedEach ids order → ∃ depth orders,
      List.Forall₂ (fun id listed => tree.preorder? depth id = some listed) ids orders ∧
        order = orders.flatten
  | .nil => ⟨0, [], .nil, rfl⟩
  | .cons first others => by
      obtain ⟨few, listed⟩ := first.exists_depth
      obtain ⟨many, orders, each, same⟩ := others.exists_depth
      refine ⟨max few many, _ :: orders, .cons ?_ (each.imp ?_), congrArg _ same⟩
      · exact preorder?_mono (Nat.le_max_left ..) listed
      · exact fun id order isOrder => preorder?_mono (Nat.le_max_right ..) isOrder

end

/-! ### Where there is a pre-order -/

/-- By induction on the depth: where the recursion ends, a finite tree has been seen. -/
theorem finiteBelow_of_preorder? {depth : Nat} {id : NodeId} {order : List NodeId}
    (listed : tree.preorder? depth id = some order) : tree.FiniteBelow id := by
  induction depth generalizing id order with
  | zero => cases listed
  | succ depth ih =>
      obtain ⟨node, orders, found, listedBelow, rfl⟩ := preorder?_succ.1 listed
      refine .node (has_of_node? found) ?_
      rintro child ⟨holder, atId, held⟩
      rw [found] at atId
      cases atId
      obtain ⟨order, -, isOrder⟩ :=
        exists_right_of_mem listedBelow (node.children_perm.mem_iff.2 held)
      exact ih isOrder

/-- The pre-orders below the nodes of a list are put one behind the other. -/
theorem exists_preorderedEach {ids : List NodeId}
    (each : ∀ id ∈ ids, ∃ order, tree.Preordered id order) :
    ∃ order, tree.PreorderedEach ids order := by
  induction ids with
  | nil => exact ⟨[], .nil⟩
  | cons id ids ih =>
      obtain ⟨order, first⟩ := each id List.mem_cons_self
      obtain ⟨orders, others⟩ := ih fun other member => each other (List.mem_cons_of_mem id member)
      exact ⟨order ++ orders, .cons first others⟩

/-- By induction on the finite tree below the node. -/
theorem FiniteBelow.exists_preordered {id : NodeId} (finite : tree.FiniteBelow id) :
    ∃ order, tree.Preordered id order := by
  induction finite with
  | @node id present _ ih =>
      obtain ⟨node, found⟩ := exists_node?_of_has present
      have each : ∀ child ∈ node.children, ∃ order, tree.Preordered child order :=
        fun child member => ih child ⟨node, found, node.children_perm.mem_iff.1 member⟩
      obtain ⟨below, listed⟩ := exists_preorderedEach each
      exact ⟨id :: below, .node (children?_eq_some_iff.2 ⟨node, found, rfl⟩) listed⟩

theorem finiteBelow_iff {id : NodeId} :
    tree.FiniteBelow id ↔ ∃ order, tree.Preordered id order :=
  ⟨FiniteBelow.exists_preordered,
    fun ⟨_, listed⟩ => listed.exists_depth.elim fun _ => finiteBelow_of_preorder?⟩

/-! ### How deep a finite tree is -/

/-- Below a node of a finite tree there is a finite tree. -/
theorem FiniteBelow.of_below {id other : NodeId} (finite : tree.FiniteBelow id)
    (reached : tree.Below id other) : tree.FiniteBelow other := by
  induction reached with
  | refl => exact finite
  | tail _ holds ih =>
      obtain ⟨_, each⟩ := ih
      exact each _ holds

/-- No node is below its own child. -/
theorem FiniteBelow.not_below {id child : NodeId} (finite : tree.FiniteBelow id)
    (holds : tree.Holds id child) : ¬ tree.Below child id := by
  -- A way from the child back to the node begins at the child, where it cannot lead back either.
  induction finite generalizing child with
  | @node id present _ ih =>
      intro reached
      rcases Relation.ReflTransGen.cases_head reached with rfl | ⟨next, held, further⟩
      · exact ih child holds holds .refl
      · exact ih child holds held (further.tail holds)

/-- The pre-order of a child lists fewer different nodes. -/
theorem length_dedup_lt {few many : Nat} {id child : NodeId} {order below : List NodeId}
    (listed : tree.preorder? many id = some order)
    (listedBelow : tree.preorder? few child = some below) (holds : tree.Holds id child) :
    below.dedup.length < order.dedup.length := by
  have isBelow := mem_preorder?_iff_below listed
  have isBelowChild := mem_preorder?_iff_below listedBelow
  have nodup : (id :: below.dedup).Nodup := by
    refine List.nodup_cons.2 ⟨fun inside => ?_, below.nodup_dedup⟩
    have back := (isBelowChild id).1 (List.mem_dedup.1 inside)
    exact (finiteBelow_of_preorder? listed).not_below holds back
  have inside : id :: below.dedup ⊆ order.dedup := by
    intro other member
    refine List.mem_dedup.2 ((isBelow other).2 ?_)
    rcases List.mem_cons.1 member with rfl | member
    · exact .refl
    · exact .head holds ((isBelowChild other).1 (List.mem_dedup.1 member))
  exact (List.subperm_of_subset nodup inside).length_le

/-- A pre-order needs no more depth than it lists different nodes. -/
theorem preorder?_dedup {depth : Nat} {id : NodeId} {order : List NodeId}
    (listed : tree.preorder? depth id = some order) :
    tree.preorder? order.dedup.length id = some order := by
  induction depth generalizing id order with
  | zero => cases listed
  | succ depth ih =>
      have first : id ∈ order.dedup :=
        List.mem_dedup.2 ((mem_preorder?_iff_below listed id).2 .refl)
      obtain ⟨less, length⟩ := Nat.exists_eq_succ_of_ne_zero (List.length_pos_of_mem first).ne'
      obtain ⟨node, orders, found, listedBelow, isOrder⟩ := preorder?_succ.1 listed
      have each : List.Forall₂ (fun child below => tree.preorder? less child = some below)
          node.children orders := by
        refine ((List.forall₂_and_left _ _).2 ⟨fun _ member => member, listedBelow⟩).imp ?_
        rintro child below ⟨member, isListed⟩
        have fewer := length_dedup_lt listed isListed
          ⟨node, found, node.children_perm.mem_iff.1 member⟩
        exact preorder?_mono (by omega) (ih isListed)
      rw [length, isOrder]
      exact preorder?_succ.2 ⟨node, orders, found, each, rfl⟩

/-- A pre-order visits only nodes of the tree, so it has at most as many different ones. -/
theorem length_dedup_le_size {depth : Nat} {id : NodeId} {order : List NodeId}
    (listed : tree.preorder? depth id = some order) : order.dedup.length ≤ tree.size := by
  have present : order.dedup ⊆ tree.ids := by
    intro other member
    have reached := (mem_preorder?_iff_below listed other).1 (List.mem_dedup.1 member)
    obtain ⟨present, _⟩ := (finiteBelow_of_preorder? listed).of_below reached
    exact mem_ids.2 present
  have length : tree.ids.length = tree.size := by simp [ids]
  exact length ▸ (List.subperm_of_subset order.nodup_dedup present).length_le

/-! ### The stack -/

/-- From every stack, the walk visits the pre-orders of the nodes on it, one behind the other, in as
many steps as nodes are visited; and there is no other way to end. -/
theorem walk?_eq_some_iff {steps : Nat} {pending order : List NodeId} :
    tree.walk? steps pending = some order ↔
      tree.PreorderedEach pending order ∧ order.length ≤ steps := by
  constructor
  · intro walked
    induction steps generalizing pending order with
    | zero =>
        cases pending with
        | nil =>
            cases walked
            exact ⟨.nil, Nat.le_refl 0⟩
        | cons id pending => cases walked
    | succ steps ih =>
        cases pending with
        | nil =>
            cases walked
            exact ⟨.nil, Nat.zero_le _⟩
        | cons id pending =>
            obtain ⟨children, found, behind⟩ := Option.bind_eq_some_iff.1 walked
            obtain ⟨visited, further, isOrder⟩ := Option.bind_eq_some_iff.1 behind
            cases isOrder
            obtain ⟨listed, fits⟩ := ih further
            obtain ⟨front, back, below, others, rfl⟩ := PreorderedEach.append_iff.1 listed
            exact ⟨.cons (.node found below) others, Nat.succ_le_succ fits⟩
  · rintro ⟨listed, fits⟩
    obtain ⟨more, rfl⟩ := Nat.exists_eq_add_of_le fits
    clear fits
    induction pending generalizing order with
    | nil =>
        cases listed
        cases more <;> rfl
    | cons id pending ih =>
        obtain _ | ⟨first, others⟩ := listed
        obtain ⟨depth, isListed⟩ := first.exists_depth
        have walked := walk?_of_preorder? isListed (ih others)
        rwa [← Nat.add_assoc, ← List.length_append] at walked

theorem preorderedEach_single {id : NodeId} {order : List NodeId} :
    tree.PreorderedEach [id] order ↔ tree.Preordered id order := by
  constructor
  · rintro (_ | ⟨listed, ⟨⟩⟩)
    rwa [List.append_nil]
  · intro listed
    have alone := PreorderedEach.cons listed .nil
    rwa [List.append_nil] at alone

theorem descendants?_eq_some_iff {id : NodeId} {order : List NodeId} :
    tree.descendants? id = some order ↔ tree.Preordered id order := by
  constructor
  · intro walked
    exact preorderedEach_single.1 (walk?_eq_some_iff.1 walked).1
  · intro ordered
    obtain ⟨depth, listed⟩ := ordered.exists_depth
    have fits := Nat.le_succ_of_le (length_dedup_le_size listed)
    exact descendants?_of_preorder? fits (preorder?_dedup listed)

end Tree

/-- The walk from a node ends exactly where there is a finite tree below the node, and it visits
exactly what the recursive pre-order lists: the node, then the pre-orders of its children in order.
With the node on its stack it takes one step for each node that is visited, and not one more.  The
children that it puts there are those of all fields in the order of their declaration, rearranged:
the same ones the same number of times. -/
theorem walks_in_preorder (tree : Tree) (id : NodeId) :
    (tree.FiniteBelow id ↔ ∃ order, tree.descendants? id = some order) ∧
      (∀ order, tree.descendants? id = some order ↔ tree.Preordered id order) ∧
      (∀ steps order, tree.walk? steps [id] = some order ↔
        tree.descendants? id = some order ∧ order.length ≤ steps) ∧
      ∀ node : Node, node.children.Perm node.declaredChildren := by
  have ordered (order : List NodeId) :
      tree.descendants? id = some order ↔ tree.Preordered id order :=
    Tree.descendants?_eq_some_iff
  refine ⟨?finite, ordered, ?stack, ?children⟩
  case finite => simp only [ordered, Tree.finiteBelow_iff]
  case stack =>
    intro steps order
    rw [ordered, Tree.walk?_eq_some_iff, Tree.preorderedEach_single]
  case children =>
    intro node
    exact node.declaredChildren_eq ▸ node.children_perm

/-- The walk comes to what stands behind ELSE before it comes to the branches, which stand in front
of it. -/
example :
    let node := Node.column (.case (some ⟨1⟩) [some ⟨2⟩, none, some ⟨3⟩] (some ⟨4⟩))
    node.declaredChildren = [⟨1⟩, ⟨2⟩, ⟨3⟩, ⟨4⟩] ∧ node.children = [⟨1⟩, ⟨4⟩, ⟨2⟩, ⟨3⟩] := by
  decide

end SelectTree
