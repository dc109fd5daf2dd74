/-
Module: SelectTree.Proofs.Tree.Sound
Purpose: trees whose nodes and recorded parents agree, and the way up from a node.
Main exports: Tree.Holds, Tree.climb, Tree.lt_size_of_climb, Tree.heldIds, Tree.Sound,
  Tree.Sound.of_lookup, Tree.Sound.new, Tree.Sound.climb_size, Tree.Sound.isAncestorOrSelf_iff

A sound tree need not be one tree: a node that hangs nowhere is the top of a tree of its own.
-/
import Mathlib.Data.Fintype.Pigeonhole
import Mathlib.Data.List.Nodup
import SelectTree.Proofs.Tree.Fitting

namespace SelectTree

namespace Tree

/-- The child is in some field of the parent. -/
def Holds (tree : Tree) (parent child : NodeId) : Prop :=
  ∃ node, tree.node? parent = some node ∧ child ∈ node.childIds

/-- The children in all fields of all nodes, as often as they are there. -/
def heldIds (tree : Tree) : List NodeId :=
  tree.entries.toList.flatMap fun entry => entry.node.childIds

/-- So many steps up along the recorded parents. -/
def climb (tree : Tree) : Nat → NodeId → Option NodeId
  | 0, id => some id
  | steps + 1, id => (tree.parent? id).bind (tree.climb steps)

/-- Nodes and recorded parents agree. -/
structure Sound (tree : Tree) : Prop where
  /-- Number 0 is a root. -/
  root_node : ∃ child, tree.node? .root = some (.root child)
  root_parent : tree.parent? .root = none
  /-- Children exist and fit the fields that hold them; so none of them is a root. -/
  fits : ∀ parent node field child, tree.node? parent = some node →
    (field, child) ∈ node.placements →
    ∃ found, tree.node? child = some found ∧ field.Fits found.nodeClass
  /-- No node is in two places. -/
  once : tree.heldIds.Nodup
  /-- The recorded parent is the node that holds the child. -/
  parent?_iff : ∀ parent child, tree.parent? child = some parent ↔ tree.Holds parent child
  /-- The way up ends. -/
  ends : ∀ id, ∃ steps, tree.climb steps id = none

/-! ### The way up -/

section Climb

variable {tree : Tree}

theorem climb_succ (steps : Nat) (id : NodeId) :
    tree.climb (steps + 1) id = (tree.parent? id).bind (tree.climb steps) := rfl

/-- Climbing in two goes comes to the same place. -/
theorem climb_add (first second : Nat) (id : NodeId) :
    tree.climb (first + second) id = (tree.climb first id).bind (tree.climb second) := by
  induction first generalizing id with
  | zero => simp [climb]
  | succ first ih =>
      rw [Nat.succ_add, climb_succ, climb_succ]
      cases tree.parent? id with
      | none => rfl
      | some parent => simpa using ih parent

theorem climb_succ' (steps : Nat) (id : NodeId) :
    tree.climb (steps + 1) id = (tree.climb steps id).bind tree.parent? := by
  have last : tree.climb 1 = tree.parent? := by
    funext id
    rw [climb_succ]
    cases tree.parent? id <;> rfl
  rw [climb_add, last]

/-- Once the top is passed, nothing is above. -/
theorem climb_eq_none_of_le {few many : Nat} {id : NodeId} (le : few ≤ many)
    (ended : tree.climb few id = none) : tree.climb many id = none := by
  obtain ⟨more, rfl⟩ := Nat.exists_eq_add_of_le le
  simp [climb_add, ended]

/-- The way up from a node ends. -/
inductive Anchored (tree : Tree) : NodeId → Prop where
  | top {id : NodeId} : tree.parent? id = none → Anchored tree id
  | under {id parent : NodeId} :
      tree.parent? id = some parent → Anchored tree parent → Anchored tree id

theorem Anchored.of_parent?_eq {id : NodeId}
    (above : ∀ parent, tree.parent? id = some parent → tree.Anchored parent) :
    tree.Anchored id := by
  cases recorded : tree.parent? id with
  | none => exact .top recorded
  | some parent => exact .under recorded (above parent recorded)

/-- A node is anchored exactly if climbing from it ends. -/
theorem anchored_iff {id : NodeId} : tree.Anchored id ↔ ∃ steps, tree.climb steps id = none := by
  constructor
  · intro anchored
    induction anchored with
    | top recorded => exact ⟨1, by simp [climb_succ, recorded]⟩
    | under recorded _ ih =>
        obtain ⟨steps, ended⟩ := ih
        exact ⟨steps + 1, by simp [climb_succ, recorded, ended]⟩
  · rintro ⟨steps, ended⟩
    induction steps generalizing id with
    | zero => cases ended
    | succ steps ih =>
        refine .of_parent?_eq fun parent recorded => ih ?_
        simpa [climb_succ, recorded] using ended

/-- The way up from everything below ends, too. -/
theorem Anchored.of_climb {steps : Nat} {id above : NodeId} (anchored : tree.Anchored above)
    (reached : tree.climb steps id = some above) : tree.Anchored id := by
  obtain ⟨more, ended⟩ := anchored_iff.1 anchored
  exact anchored_iff.2 ⟨steps + more, by rw [climb_add, reached, Option.bind_some, ended]⟩

/-- A way up that ends comes to no node twice. -/
theorem climb_injective {few many : Nat} {id above : NodeId} (anchored : tree.Anchored above)
    (lt : few < many) (one : tree.climb few id = some above) :
    tree.climb many id ≠ some above := by
  intro two
  obtain ⟨gap, rfl⟩ := Nat.exists_eq_add_of_lt lt
  have loop : tree.climb (gap + 1) above = some above := by
    rw [Nat.add_assoc, climb_add, one, Option.bind_some] at two
    exact two
  have forever : ∀ rounds, tree.climb (rounds * (gap + 1)) above = some above := by
    intro rounds
    induction rounds with
    | zero => simp [climb]
    | succ rounds ih => rw [Nat.succ_mul, climb_add, ih, Option.bind_some, loop]
  obtain ⟨steps, ended⟩ := anchored_iff.1 anchored
  have beyond := climb_eq_none_of_le (Nat.le_mul_of_pos_right steps (Nat.succ_pos gap)) ended
  rw [forever steps] at beyond
  cases beyond

/-- The way up from a node leads to another one after one number of steps only. -/
theorem steps_unique {few many : Nat} {id above : NodeId} (anchored : tree.Anchored above)
    (one : tree.climb few id = some above) (two : tree.climb many id = some above) :
    few = many := by
  rcases Nat.lt_trichotomy few many with lt | same | lt
  · exact absurd two (climb_injective anchored lt one)
  · exact same
  · exact absurd one (climb_injective anchored lt two)

/-- A way up that ends has fewer steps than the tree has nodes: it visits no node twice. -/
theorem lt_size_of_climb {steps : Nat} {id above : NodeId} (anchored : tree.Anchored above)
    (present : tree.Has above) (reached : tree.climb steps id = some above) :
    steps < tree.size := by
  have visits : ∀ step : Fin (steps + 1), ∃ other, tree.climb step id = some other ∧
      tree.Has other ∧ tree.Anchored other := by
    intro step
    obtain ⟨more, isSteps⟩ := Nat.exists_eq_add_of_le (Nat.le_of_lt_succ step.isLt)
    rw [isSteps, climb_add] at reached
    obtain ⟨other, toOther, further⟩ := Option.bind_eq_some_iff.1 reached
    refine ⟨other, toOther, ?_, anchored.of_climb further⟩
    cases more with
    | zero => exact Option.some.inj further ▸ present
    | succ more =>
        obtain ⟨parent, recorded, _⟩ := Option.bind_eq_some_iff.1 further
        exact has_of_parent? recorded
  choose visited toVisited inside anchoredAt using visits
  by_contra tooMany
  obtain ⟨first, second, differ, same⟩ :=
    Fintype.exists_ne_map_eq_of_card_lt
      (fun step => (⟨(visited step).index, inside step⟩ : Fin tree.size))
      (by simpa using Nat.lt_succ_of_le (Nat.le_of_not_lt tooMany))
  have sameNode : visited first = visited second := NodeId.ext_index (congrArg Fin.val same)
  have sameStep := steps_unique (anchoredAt second) (sameNode ▸ toVisited first)
    (toVisited second)
  exact differ (Fin.ext sameStep)

end Climb

/-! ### Building and using soundness -/

/-- Nothing is held twice if no node holds a child twice and every child has one parent. -/
theorem nodup_heldIds {tree : Tree}
    (nodup : ∀ id node, tree.node? id = some node → node.childIds.Nodup)
    (parent?_iff : ∀ parent child, tree.parent? child = some parent ↔ tree.Holds parent child) :
    tree.heldIds.Nodup := by
  have lookup : ∀ index (bound : index < tree.entries.toList.length),
      tree.node? ⟨index⟩ = some tree.entries.toList[index].node := by
    intro index bound
    have inside : index < tree.entries.size := by simpa using bound
    simp [node?, inside]
  refine List.nodup_flatMap.2 ⟨?_, List.pairwise_iff_getElem.2 ?_⟩
  · intro entry member
    obtain ⟨index, bound, rfl⟩ := List.getElem_of_mem member
    exact nodup _ _ (lookup index bound)
  · intro first second firstBound secondBound before child heldFirst heldSecond
    have one := (parent?_iff ⟨first⟩ child).2 ⟨_, lookup first firstBound, heldFirst⟩
    have two := (parent?_iff ⟨second⟩ child).2 ⟨_, lookup second secondBound, heldSecond⟩
    rw [one] at two
    cases two
    omega

/-- Soundness from facts about single nodes. -/
theorem Sound.of_lookup {tree : Tree}
    (root_node : ∃ child, tree.node? .root = some (.root child))
    (fits : ∀ parent node field child, tree.node? parent = some node →
      (field, child) ∈ node.placements →
      ∃ found, tree.node? child = some found ∧ field.Fits found.nodeClass)
    (nodup : ∀ id node, tree.node? id = some node → node.childIds.Nodup)
    (parent?_iff : ∀ parent child, tree.parent? child = some parent ↔ tree.Holds parent child)
    (anchored : ∀ id, tree.Anchored id) : tree.Sound where
  root_node := root_node
  root_parent := by
    obtain ⟨inner, isRoot⟩ := root_node
    refine Option.eq_none_iff_forall_ne_some.2 fun parent recorded => ?_
    obtain ⟨node, atParent, held⟩ := (parent?_iff parent .root).1 recorded
    obtain ⟨field, placed⟩ := Node.exists_placement held
    obtain ⟨found, atRoot, fit⟩ := fits parent node field .root atParent placed
    rw [isRoot] at atRoot
    cases atRoot
    exact fit.ne_root rfl
  fits := fits
  once := nodup_heldIds nodup parent?_iff
  parent?_iff := parent?_iff
  ends := fun id => anchored_iff.1 (anchored id)

namespace Sound

variable {tree : Tree} (sound : tree.Sound)

include sound

theorem anchored (id : NodeId) : tree.Anchored id :=
  anchored_iff.2 (sound.ends id)

/-- A node lists no child twice. -/
theorem nodup {id : NodeId} {node : Node} (found : tree.node? id = some node) :
    node.childIds.Nodup := by
  obtain ⟨entry, isEntry, rfl⟩ := Option.map_eq_some_iff.1 found
  refine (List.nodup_flatMap.1 sound.once).1 entry ?_
  exact List.mem_iff_getElem?.2 ⟨id.index, by simpa using isEntry⟩

/-- What is held records who holds it. -/
theorem parent?_of_mem {parent child : NodeId} {node : Node}
    (found : tree.node? parent = some node) (held : child ∈ node.childIds) :
    tree.parent? child = some parent :=
  (sound.parent?_iff parent child).2 ⟨node, found, held⟩

theorem fitting : tree.Fitting :=
  sound.fits

/-- What is held is there, and is no root. -/
theorem exists_node?_of_mem {parent child : NodeId} {node : Node}
    (found : tree.node? parent = some node) (held : child ∈ node.childIds) :
    ∃ childNode, tree.node? child = some childNode ∧ childNode.nodeClass ≠ .root :=
  sound.fitting.exists_node?_of_mem found held

theorem has_of_mem {parent child : NodeId} {node : Node}
    (found : tree.node? parent = some node) (held : child ∈ node.childIds) :
    tree.Has child :=
  sound.fitting.has_of_mem found held

/-- The recorded parent of a node is a node. -/
theorem has_parent {parent child : NodeId} (recorded : tree.parent? child = some parent) :
    tree.Has parent := by
  obtain ⟨node, found, _⟩ := (sound.parent?_iff parent child).1 recorded
  exact has_of_node? found

theorem size_pos : 0 < tree.size := by
  obtain ⟨child, isRoot⟩ := sound.root_node
  exact has_of_node? isRoot

/-! The way up visits no node twice, so it has no more steps than the tree has nodes. -/

/-- Above what is there is only what is there. -/
theorem has_climb {steps : Nat} {id above : NodeId} (present : tree.Has id)
    (reached : tree.climb steps id = some above) : tree.Has above := by
  induction steps generalizing id with
  | zero =>
      cases reached
      exact present
  | succ steps ih =>
      obtain ⟨parent, recorded, rest⟩ := Option.bind_eq_some_iff.1 reached
      exact ih (sound.has_parent recorded) rest

/-- Climbing ends within as many steps as there are nodes. -/
theorem climb_size (id : NodeId) : tree.climb tree.size id = none := by
  refine Option.eq_none_iff_forall_ne_some.2 fun above reached => ?_
  have present : tree.Has id := by
    obtain ⟨steps, isSize⟩ := Nat.exists_eq_add_one_of_ne_zero (Nat.ne_of_gt sound.size_pos)
    rw [isSize] at reached
    obtain ⟨parent, recorded, _⟩ := Option.bind_eq_some_iff.1 reached
    exact has_of_parent? recorded
  have fewer := lt_size_of_climb (sound.anchored above) (sound.has_climb present reached) reached
  exact Nat.lt_irrefl _ fewer

end Sound

/-- Searching the way up for a node finds what is on the way. -/
theorem reachesUp_iff {tree : Tree} {candidate : NodeId} {bound : Nat} {id : NodeId} :
    tree.reachesUp candidate bound id = true ↔
      ∃ steps, steps < bound ∧ tree.climb steps id = some candidate := by
  induction bound generalizing id with
  | zero => simp [reachesUp]
  | succ bound ih =>
      rw [reachesUp, Bool.or_eq_true, beq_iff_eq]
      constructor
      · rintro (rfl | above)
        · exact ⟨0, Nat.succ_pos _, rfl⟩
        · cases recorded : tree.parent? id with
          | none => simp [recorded] at above
          | some parent =>
              rw [recorded] at above
              obtain ⟨steps, lt, reached⟩ := ih.1 above
              exact ⟨steps + 1, Nat.succ_lt_succ lt, by simp [climb_succ, recorded, reached]⟩
      · rintro ⟨steps, lt, reached⟩
        cases steps with
        | zero => exact .inl (Option.some.inj reached)
        | succ steps =>
            obtain ⟨parent, recorded, rest⟩ := Option.bind_eq_some_iff.1 reached
            refine .inr ?_
            rw [recorded]
            exact ih.2 ⟨steps, Nat.lt_of_succ_lt_succ lt, rest⟩

/-- In a sound tree the search for an ancestor looks far enough. -/
theorem Sound.isAncestorOrSelf_iff {tree : Tree} (sound : tree.Sound) {candidate id : NodeId} :
    tree.isAncestorOrSelf candidate id = true ↔
      ∃ steps, tree.climb steps id = some candidate := by
  rw [isAncestorOrSelf, reachesUp_iff]
  constructor
  · rintro ⟨steps, _, reached⟩
    exact ⟨steps, reached⟩
  · rintro ⟨steps, reached⟩
    refine ⟨steps, ?_, reached⟩
    by_contra beyond
    rw [climb_eq_none_of_le (by omega) (sound.climb_size id)] at reached
    cases reached

/-- A tree of nothing but a root is sound. -/
theorem Sound.new : Tree.new.Sound := by
  have onlyRoot : ∀ id node, Tree.new.node? id = some node → node = .root none := by
    intro id node found
    obtain ⟨entry, isEntry, rfl⟩ := Option.map_eq_some_iff.1 found
    have member := Array.mem_of_getElem? isEntry
    simp only [Tree.new, Array.mem_singleton] at member
    rw [member]
  have noParent : ∀ id, Tree.new.parent? id = none := by
    intro id
    refine Option.eq_none_iff_forall_ne_some.2 fun parent recorded => ?_
    obtain ⟨entry, isEntry, isParent⟩ := Option.bind_eq_some_iff.1 recorded
    have member := Array.mem_of_getElem? isEntry
    simp only [Tree.new, Array.mem_singleton] at member
    rw [member] at isParent
    cases isParent
  have noChild : ∀ id node, Tree.new.node? id = some node → node.childIds = [] := by
    intro id node found
    rw [onlyRoot id node found]
    rfl
  refine .of_lookup ⟨none, rfl⟩ ?_ ?_ ?_ fun id => .top (noParent id)
  · intro parent node field child found placed
    have held := Node.mem_childIds_of_placement placed
    rw [noChild parent node found] at held
    cases held
  · intro id node found
    rw [noChild id node found]
    exact .nil
  · intro parent child
    rw [noParent child]
    constructor
    · intro impossible
      cases impossible
    · rintro ⟨node, found, held⟩
      rw [noChild parent node found] at held
      cases held

end Tree

end SelectTree
