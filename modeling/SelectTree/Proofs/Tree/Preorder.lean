/-
Module: SelectTree.Proofs.Tree.Preorder
Purpose: the walk over everything below a node, and what it visits where parents are recorded.
Main exports: Node.children_perm, Tree.descendants?_of_preorder?, Tree.Below, Tree.RecordedBelow,
  Tree.RecordedBelow.nodup_preorder?, Tree.Sound.exists_preorder?, Tree.Sound.mem_preorder?_iff,
  Tree.Sound.nodup_preorder?
-/
import Mathlib.Data.List.Perm.Basic
import Mathlib.Logic.Relation
import SelectTree.Proofs.Tree.Sound
import SelectTree.Tree.Walk

namespace SelectTree

/-- A value holds either one child or listed children. -/
theorem FieldValue.childIds_eq_append (value : FieldValue) :
    value.childIds =
      (match value with
        | .child slot => slot.toList
        | _ => []) ++
      (match value with
        | .children slots => slots.filterMap id
        | _ => []) := by
  cases value <;> simp [FieldValue.childIds]

/-- The children in fields for one child, then those in lists, are all children. -/
theorem Node.children_perm (node : Node) : node.children.Perm node.childIds := by
  rw [children, childIds, funext FieldValue.childIds_eq_append]
  exact List.flatMap_append_perm _ _ _

namespace Tree

variable {tree : Tree}

/-! ### The walk and the recursive pre-order -/

theorem mapM_eq_some_iff {α β : Type} {action : α → Option β} {items : List α}
    {results : List β} :
    items.mapM action = some results ↔
      List.Forall₂ (fun item result => action item = some result) items results := by
  induction items generalizing results with
  | nil => simp [eq_comm]
  | cons item items ih =>
      simp only [List.mapM_cons, Option.bind_eq_bind, Option.bind_eq_some_iff,
        List.forall₂_cons_left_iff, ← ih, pure, Option.some.injEq]
      constructor
      · rintro ⟨result, first, others, rest, rfl⟩
        exact ⟨result, others, first, rest, rfl⟩
      · rintro ⟨result, others, first, rest, rfl⟩
        exact ⟨result, first, others, rest, rfl⟩

theorem preorder?_succ {depth : Nat} {id : NodeId} {order : List NodeId} :
    tree.preorder? (depth + 1) id = some order ↔
      ∃ node below, tree.node? id = some node ∧
        List.Forall₂ (fun child listed => tree.preorder? depth child = some listed)
          node.children below ∧
        order = id :: below.flatten := by
  simp only [preorder?, children?, Option.bind_eq_bind, Option.bind_eq_some_iff,
    Option.map_eq_some_iff, pure, Option.some.injEq, mapM_eq_some_iff]
  constructor
  · rintro ⟨children, ⟨node, found, rfl⟩, below, listed, rfl⟩
    exact ⟨node, below, found, listed, rfl⟩
  · rintro ⟨node, below, found, listed, rfl⟩
    exact ⟨node.children, ⟨node, found, rfl⟩, below, listed, rfl⟩

/-- The walk visits what the recursive pre-order lists, and goes on. -/
theorem walk?_of_preorder? {depth : Nat} {id : NodeId} {order : List NodeId}
    (listed : tree.preorder? depth id = some order) {steps : Nat} {pending rest : List NodeId}
    (goesOn : tree.walk? steps pending = some rest) :
    tree.walk? (order.length + steps) (id :: pending) = some (order ++ rest) := by
  induction depth generalizing id order steps pending rest with
  | zero => cases listed
  | succ depth ih =>
      obtain ⟨node, below, found, listedBelow, rfl⟩ := preorder?_succ.1 listed
      have walkBelow : ∀ {children below}, List.Forall₂
          (fun child listed => tree.preorder? depth child = some listed) children below →
          tree.walk? (below.flatten.length + steps) (children ++ pending) =
            some (below.flatten ++ rest) := by
        intro children below listedBelow
        induction listedBelow with
        | nil => simpa using goesOn
        | cons first _ ihBelow =>
            have both := ih first ihBelow
            simpa [Nat.add_assoc] using both
      have length : (id :: below.flatten).length + steps =
          (below.flatten.length + steps) + 1 := by
        simp only [List.length_cons]
        omega
      have visited := walkBelow listedBelow
      rw [length, walk?]
      simp only [children?, found, Option.map_some, Option.bind_eq_bind, Option.bind_some,
        visited]
      rfl

theorem preorder?_mono {few many : Nat} (le : few ≤ many) {id : NodeId} {order : List NodeId}
    (listed : tree.preorder? few id = some order) : tree.preorder? many id = some order := by
  induction few generalizing many id order with
  | zero => cases listed
  | succ few ih =>
      obtain ⟨more, rfl⟩ := Nat.exists_eq_add_of_le le
      obtain ⟨node, below, found, listedBelow, rfl⟩ := preorder?_succ.1 listed
      rw [show few + 1 + more = (few + more) + 1 by omega]
      refine preorder?_succ.2 ⟨node, below, found, ?_, rfl⟩
      exact listedBelow.imp fun child order isOrder => ih (Nat.le_add_right few more) isOrder

theorem countDownTo_of_preorder? {depth : Nat} {id : NodeId} {order : List NodeId}
    (listed : tree.preorder? depth id = some order) :
    tree.countDownTo depth id = order.length := by
  induction depth generalizing id order with
  | zero => cases listed
  | succ depth ih =>
      obtain ⟨node, below, found, listedBelow, rfl⟩ := preorder?_succ.1 listed
      have countBelow : ∀ {children below}, List.Forall₂
          (fun child listed => tree.preorder? depth child = some listed) children below →
          ∀ start, children.foldl (fun count child => count + tree.countDownTo depth child)
            start = start + below.flatten.length := by
        intro children below listedBelow
        induction listedBelow with
        | nil => simp
        | cons first _ ihBelow =>
            intro start
            rw [List.foldl_cons, ihBelow, ih first, List.flatten_cons, List.length_append]
            omega
      rw [countDownTo]
      simp only [children?, found, Option.map_some, Option.getD_some,
        countBelow listedBelow, List.length_cons]
      omega

/-- Where the recursive pre-order needs no more depth than the tree has nodes, the walk visits
the same nodes in the same order. -/
theorem descendants?_of_preorder? {depth : Nat} {id : NodeId} {order : List NodeId}
    (le : depth ≤ tree.size + 1) (listed : tree.preorder? depth id = some order) :
    tree.descendants? id = some order := by
  have enough := preorder?_mono le listed
  have walked := walk?_of_preorder? enough (rfl : tree.walk? 0 [] = some [])
  rw [descendants?, countDownTo_of_preorder? enough]
  simpa using walked

/-! ### What is below a node -/

/-- The second node is the first one or below it: fields for children lead from one to the other. -/
def Below (tree : Tree) : NodeId → NodeId → Prop :=
  Relation.ReflTransGen tree.Holds

/-- The pre-order of a node lists what is below it. -/
theorem mem_preorder?_iff_below {depth : Nat} {id : NodeId} {order : List NodeId}
    (listed : tree.preorder? depth id = some order) (other : NodeId) :
    other ∈ order ↔ tree.Below id other := by
  induction depth generalizing id order with
  | zero => cases listed
  | succ depth ih =>
      obtain ⟨node, below, found, listedBelow, rfl⟩ := preorder?_succ.1 listed
      rw [List.mem_cons, List.mem_flatten, Below, Relation.ReflTransGen.cases_head_iff, eq_comm]
      refine or_congr Iff.rfl ?_
      constructor
      · rintro ⟨order, member, inside⟩
        obtain ⟨child, childMember, isOrder⟩ := exists_left_of_mem listedBelow member
        have held := node.children_perm.mem_iff.1 childMember
        exact ⟨child, ⟨node, found, held⟩, (ih isOrder).1 inside⟩
      · rintro ⟨child, ⟨holder, atId, held⟩, further⟩
        rw [found] at atId
        cases atId
        have childMember := node.children_perm.mem_iff.2 held
        obtain ⟨order, member, isOrder⟩ := exists_right_of_mem listedBelow childMember
        exact ⟨order, member, (ih isOrder).2 further⟩

/-- One member of each of several lists. -/
theorem sublist_flatten {α : Type} {items : List α} {lists : List (List α)}
    (members : List.Forall₂ (fun item list => item ∈ list) items lists) :
    items.Sublist lists.flatten := by
  induction members with
  | nil => exact .slnil
  | cons member _ ih => exact (List.singleton_sublist.2 member).append ih

/-- Where nothing is listed twice, no node holds a child twice. -/
theorem nodup_childIds_of_preorder? {depth : Nat} {id : NodeId} {order : List NodeId}
    (listed : tree.preorder? depth id = some order) (nodup : order.Nodup) {holder : NodeId}
    (below : tree.Below id holder) {node : Node} (found : tree.node? holder = some node) :
    node.childIds.Nodup := by
  induction depth generalizing id order with
  | zero => cases listed
  | succ depth ih =>
      obtain ⟨top, orders, atTop, listedBelow, rfl⟩ := preorder?_succ.1 listed
      have nodupBelow := (List.nodup_cons.1 nodup).2
      rcases Relation.ReflTransGen.cases_head below with rfl | ⟨child, ⟨_, atId, held⟩, further⟩
      · rw [found] at atTop
        cases atTop
        have inside := sublist_flatten (listedBelow.imp fun child order isOrder =>
          (mem_preorder?_iff_below isOrder child).2 .refl)
        exact node.children_perm.nodup_iff.1 (inside.nodup nodupBelow)
      · rw [atTop] at atId
        cases atId
        have childMember := top.children_perm.mem_iff.2 held
        obtain ⟨order, member, isOrder⟩ := exists_right_of_mem listedBelow childMember
        exact ih isOrder ((List.nodup_flatten.1 nodupBelow).1 order member) further

/-- The way up from a node ends, and everything below it records the node that holds it. -/
structure RecordedBelow (tree : Tree) (top : NodeId) : Prop where
  present : tree.Has top
  anchored : tree.Anchored top
  recorded : ∀ holder child, tree.Below top holder → tree.Holds holder child →
    tree.parent? child = some holder

namespace RecordedBelow

variable {top : NodeId} (below : tree.RecordedBelow top)

include below

theorem child {child : NodeId} (holds : tree.Holds top child) : tree.RecordedBelow child where
  present := has_of_parent? (below.recorded top child .refl holds)
  anchored := .under (below.recorded top child .refl holds) below.anchored
  recorded := fun holder other reached => below.recorded holder other (.head holds reached)

/-- The way up leads back from everything below. -/
theorem exists_climb {id : NodeId} (reached : tree.Below top id) :
    ∃ steps, tree.climb steps id = some top := by
  induction reached with
  | refl => exact ⟨0, rfl⟩
  | tail reached holds ih =>
      obtain ⟨steps, leads⟩ := ih
      refine ⟨steps + 1, ?_⟩
      rw [climb_succ, below.recorded _ _ reached holds, Option.bind_some, leads]

theorem exists_preorder? : ∃ order, tree.preorder? tree.size top = some order := by
  -- A node so many steps below the top has fewer levels below it than the tree has other nodes.
  have bounded : ∀ depth steps id, steps + depth = tree.size → tree.RecordedBelow id →
      tree.climb steps id = some top → ∃ order, tree.preorder? depth id = some order := by
    intro depth
    induction depth with
    | zero =>
        intro steps id isSize _ reached
        have fewer := lt_size_of_climb below.anchored below.present reached
        omega
    | succ depth ih =>
        intro steps id isSize belowId reached
        obtain ⟨node, found⟩ := exists_node?_of_has belowId.present
        have each : ∀ child ∈ node.children,
            ∃ order, tree.preorder? depth child = some order := by
          intro child listed
          have holds : tree.Holds id child := ⟨node, found, node.children_perm.mem_iff.1 listed⟩
          refine ih (steps + 1) child (by omega) (belowId.child holds) ?_
          rw [climb_succ, belowId.recorded id child .refl holds, Option.bind_some, reached]
        obtain ⟨orders, listed⟩ : ∃ orders, List.Forall₂
            (fun child listed => tree.preorder? depth child = some listed)
            node.children orders := by
          refine ⟨node.children.map fun child => (tree.preorder? depth child).getD [], ?_⟩
          refine List.forall₂_map_right_iff.2 (List.forall₂_same.2 fun child member => ?_)
          obtain ⟨order, isOrder⟩ := each child member
          rw [isOrder, Option.getD_some]
        exact ⟨_, preorder?_succ.2 ⟨node, orders, found, listed, rfl⟩⟩
  exact bounded tree.size 0 top (Nat.zero_add _) below rfl

/-- No node is below two children. -/
theorem child_unique {first second other : NodeId} (one : tree.Holds top first)
    (two : tree.Holds top second) (reachedFirst : tree.Below first other)
    (reachedSecond : tree.Below second other) : first = second := by
  obtain ⟨few, toFirst⟩ := (below.child one).exists_climb reachedFirst
  obtain ⟨many, toSecond⟩ := (below.child two).exists_climb reachedSecond
  have throughFirst : tree.climb (few + 1) other = some top := by
    rw [climb_succ', toFirst, Option.bind_some, below.recorded top first .refl one]
  have throughSecond : tree.climb (many + 1) other = some top := by
    rw [climb_succ', toSecond, Option.bind_some, below.recorded top second .refl two]
  have same := steps_unique below.anchored throughFirst throughSecond
  obtain rfl : few = many := by omega
  rw [toFirst] at toSecond
  exact Option.some.inj toSecond

/-- No node is below its own child. -/
theorem not_below_child {child : NodeId} (holds : tree.Holds top child) :
    ¬ tree.Below child top := by
  intro reached
  obtain ⟨steps, toChild⟩ := (below.child holds).exists_climb reached
  have loop : tree.climb (steps + 1) top = some top := by
    rw [climb_succ', toChild, Option.bind_some, below.recorded top child .refl holds]
  have none := steps_unique below.anchored loop (rfl : tree.climb 0 top = some top)
  omega

/-- The pre-order lists no node twice if no node holds a child twice. -/
theorem nodup_preorder? {depth : Nat} {order : List NodeId}
    (listed : tree.preorder? depth top = some order)
    (nodup : ∀ holder node, tree.Below top holder → tree.node? holder = some node →
      node.childIds.Nodup) : order.Nodup := by
  induction depth generalizing top order with
  | zero => cases listed
  | succ depth ih =>
      obtain ⟨node, orders, found, listedBelow, rfl⟩ := preorder?_succ.1 listed
      have holds : ∀ child ∈ node.children, tree.Holds top child :=
        fun child member => ⟨node, found, node.children_perm.mem_iff.1 member⟩
      have orderAt : ∀ index (bound : index < orders.length),
          ∃ bound' : index < node.children.length,
            tree.preorder? depth node.children[index] = some orders[index] := by
        intro index bound
        have bound' : index < node.children.length := listedBelow.length_eq ▸ bound
        exact ⟨bound', (List.forall₂_iff_get.1 listedBelow).2 index bound' bound⟩
      refine List.nodup_cons.2 ⟨?_, List.nodup_flatten.2 ⟨?_, ?_⟩⟩
      · intro inside
        obtain ⟨order, member, inside⟩ := List.mem_flatten.1 inside
        obtain ⟨child, childMember, isOrder⟩ := exists_left_of_mem listedBelow member
        exact below.not_below_child (holds child childMember)
          ((mem_preorder?_iff_below isOrder top).1 inside)
      · intro order member
        obtain ⟨child, childMember, isOrder⟩ := exists_left_of_mem listedBelow member
        have held := holds child childMember
        exact ih (below.child held) isOrder
          fun holder node reached => nodup holder node (.head held reached)
      · refine List.pairwise_iff_getElem.2 ?_
        intro first second firstBound secondBound lt other inFirst inSecond
        obtain ⟨firstBound', isFirst⟩ := orderAt first firstBound
        obtain ⟨secondBound', isSecond⟩ := orderAt second secondBound
        have sameChild := below.child_unique (holds _ (List.getElem_mem firstBound'))
          (holds _ (List.getElem_mem secondBound'))
          ((mem_preorder?_iff_below isFirst other).1 inFirst)
          ((mem_preorder?_iff_below isSecond other).1 inSecond)
        have once := node.children_perm.nodup_iff.2 (nodup top node .refl found)
        have sameIndex := (List.Nodup.getElem_inj_iff once).1 sameChild
        omega

end RecordedBelow

/-! ### Sound trees -/

namespace Sound

variable (sound : tree.Sound)

include sound

theorem recordedBelow {id : NodeId} (present : tree.Has id) : tree.RecordedBelow id where
  present := present
  anchored := sound.anchored id
  recorded := fun holder child _ holds => (sound.parent?_iff holder child).2 holds

/-- Everything below a node of a sound tree has a pre-order. -/
theorem exists_preorder? {id : NodeId} (present : tree.Has id) :
    ∃ order, tree.preorder? tree.size id = some order :=
  (sound.recordedBelow present).exists_preorder?

/-- The pre-order of a node lists the nodes from which the way up leads through it. -/
theorem mem_preorder?_iff {depth : Nat} {id : NodeId} {order : List NodeId}
    (listed : tree.preorder? depth id = some order) (other : NodeId) :
    other ∈ order ↔ ∃ steps, tree.climb steps other = some id := by
  rw [mem_preorder?_iff_below listed]
  constructor
  · intro reached
    induction reached with
    | refl => exact ⟨0, rfl⟩
    | @tail holder child _ holds ih =>
        obtain ⟨steps, leads⟩ := ih
        refine ⟨steps + 1, ?_⟩
        rw [climb_succ, (sound.parent?_iff holder child).2 holds, Option.bind_some, leads]
  · rintro ⟨steps, reached⟩
    induction steps generalizing other with
    | zero =>
        cases reached
        exact .refl
    | succ steps ih =>
        obtain ⟨parent, recorded, further⟩ := Option.bind_eq_some_iff.1 reached
        exact (ih parent further).tail ((sound.parent?_iff parent other).1 recorded)

/-- The pre-order of a node lists no node twice. -/
theorem nodup_preorder? {depth : Nat} {id : NodeId} {order : List NodeId}
    (listed : tree.preorder? depth id = some order) : order.Nodup := by
  have present : tree.Has id := by
    cases depth with
    | zero => cases listed
    | succ depth =>
        obtain ⟨node, _, found, _⟩ := preorder?_succ.1 listed
        exact has_of_node? found
  exact (sound.recordedBelow present).nodup_preorder? listed fun _ _ _ found => sound.nodup found

end Sound

end Tree

end SelectTree
