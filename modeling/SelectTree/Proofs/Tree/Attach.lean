/-
Module: SelectTree.Proofs.Tree.Attach
Purpose: adding a node keeps a tree sound.
Main exports: Tree.Attachable, Tree.Sound.attach, Tree.checkPlacements_iff, Tree.add_eq_ok_iff
-/
import SelectTree.Proofs.Tree.Sound

namespace SelectTree

namespace Tree

/-- The children of a node to be added exist, fit, hang nowhere and differ from each other. -/
structure Attachable (tree : Tree) (node : Node) : Prop where
  fits : ∀ field child, (field, child) ∈ node.placements →
    ∃ found, tree.node? child = some found ∧ field.Fits found.nodeClass
  loose : ∀ child ∈ node.childIds, tree.parent? child = none
  nodup : node.childIds.Nodup

namespace Attachable

variable {tree : Tree} {node : Node} (attachable : tree.Attachable node)

include attachable

/-- What an attachable node holds is there. -/
theorem has {child : NodeId} (held : child ∈ node.childIds) : tree.Has child := by
  obtain ⟨field, placed⟩ := Node.exists_placement held
  obtain ⟨found, atChild, _⟩ := attachable.fits field child placed
  exact has_of_node? atChild

theorem parent?_attach (id : NodeId) :
    (tree.attach node).parent? id =
      if id ∈ node.childIds then some tree.nextId else tree.parent? id := by
  by_cases present : (tree.attach node).Has id
  · exact Tree.parent?_attach tree node id present
  · have absent : tree.size + 1 ≤ id.index := by simpa [Has] using present
    have notChild : id ∉ node.childIds := by
      intro held
      have inside : id.index < tree.size := attachable.has held
      omega
    rw [if_neg notChild, parent?_eq_none_of_size_le (by simpa using absent),
      parent?_eq_none_of_size_le (Nat.le_of_succ_le absent)]

/-- A node is not its own child, since its number is not given yet. -/
theorem nextId_not_mem : tree.nextId ∉ node.childIds := by
  intro held
  have inside : tree.nextId.index < tree.size := attachable.has held
  simp [nextId] at inside

/-- The new node hangs nowhere. -/
theorem parent?_nextId : (tree.attach node).parent? tree.nextId = none := by
  rw [attachable.parent?_attach, if_neg attachable.nextId_not_mem,
    parent?_eq_none_of_size_le (by simp [nextId])]

end Attachable

/-- The new node holds its children, and every other one what it held. -/
theorem holds_attach {tree : Tree} {node : Node} {parent child : NodeId} :
    (tree.attach node).Holds parent child ↔
      (parent = tree.nextId ∧ child ∈ node.childIds) ∨ tree.Holds parent child := by
  have fresh : tree.node? tree.nextId = none := node?_eq_none_iff.2 (by simp [nextId])
  simp only [Holds, node?_attach]
  split
  · next same => simp [same, fresh]
  · next other => simp [other]

/-- Adding a node over children that hang nowhere keeps a tree sound. -/
theorem Sound.attach {tree : Tree} {node : Node} (sound : tree.Sound)
    (attachable : tree.Attachable node) : (tree.attach node).Sound := by
  have newAnchored : (tree.attach node).Anchored tree.nextId := .top attachable.parent?_nextId
  refine .of_lookup ?_ ?_ ?_ ?_ ?_
  · obtain ⟨child, isRoot⟩ := sound.root_node
    exact ⟨child, by rw [node?_attach_of_has tree node (has_of_node? isRoot), isRoot]⟩
  · exact sound.fitting.attach attachable.fits
  · intro id holder found
    rw [node?_attach] at found
    split at found
    · cases found
      exact attachable.nodup
    · exact sound.nodup found
  · intro parent child
    rw [attachable.parent?_attach, holds_attach]
    by_cases adopted : child ∈ node.childIds
    · -- An adopted child had no parent, so no node of the old tree holds it.
      have looseBefore : ¬ tree.Holds parent child := by
        rw [← sound.parent?_iff, attachable.loose child adopted]
        exact nofun
      simp [adopted, looseBefore, eq_comm]
    · simp [adopted, sound.parent?_iff]
  · intro id
    induction sound.anchored id with
    | @top id recorded =>
        refine .of_parent?_eq fun parent now => ?_
        rw [attachable.parent?_attach, recorded] at now
        split at now
        · cases now
          exact newAnchored
        · cases now
    | @under id before recorded _ ih =>
        refine .of_parent?_eq fun parent now => ?_
        rw [attachable.parent?_attach, recorded] at now
        split at now
        · cases now
          exact newAnchored
        · cases now
          exact ih

/-! ### The checks of an addition -/

/-- The first child is accepted if it is there, hangs nowhere, was not seen before and fits its
field. -/
theorem checkPlacements_cons {tree : Tree} {seen : List NodeId} {field : FieldDescriptor}
    {child : NodeId} {placements : List (FieldDescriptor × NodeId)} {demanded : NodeClass}
    (holdsChildren : field.type.accepts? = some demanded) :
    tree.checkPlacements seen ((field, child) :: placements) = .ok () ↔
      (∃ found, tree.node? child = some found ∧ field.Fits found.nodeClass) ∧
        tree.parent? child = none ∧ child ∉ seen ∧
        tree.checkPlacements (child :: seen) placements = .ok () := by
  simp only [checkPlacements, bind_eq_ok_iff, refuse_eq_ok_iff, require_eq_ok_iff,
    FieldDescriptor.Fits.checkClass_iff holdsChildren]
  constructor
  · rintro ⟨node, found, notRoot, ⟨⟩, fits, unused, checked⟩
    refine ⟨⟨node, found, fits⟩, ?_, ?_, checked⟩ <;> simp_all
  · rintro ⟨⟨node, found, fits⟩, loose, notSeen, checked⟩
    exact ⟨node, found, fits.ne_root, (), fits, by simp [loose, notSeen], checked⟩

/-- All children are accepted exactly if each is loose and fits, and none is listed twice. -/
theorem checkPlacements_iff {tree : Tree} {placements : List (FieldDescriptor × NodeId)}
    {seen : List NodeId}
    (holdChildren : ∀ field child, (field, child) ∈ placements →
      ∃ demanded, field.type.accepts? = some demanded) :
    tree.checkPlacements seen placements = .ok () ↔
      (∀ field child, (field, child) ∈ placements →
        ∃ found, tree.node? child = some found ∧ field.Fits found.nodeClass) ∧
      (∀ child ∈ placements.map Prod.snd, tree.parent? child = none) ∧
      (placements.map Prod.snd).Nodup ∧ (placements.map Prod.snd).Disjoint seen := by
  induction placements generalizing seen with
  | nil => simp [checkPlacements]
  | cons placement placements ih =>
      obtain ⟨field, child⟩ := placement
      obtain ⟨demanded, holdsChildren⟩ := holdChildren field child List.mem_cons_self
      rw [checkPlacements_cons holdsChildren,
        ih fun field child placed => holdChildren field child (List.mem_cons_of_mem _ placed)]
      simp only [List.map_cons, List.nodup_cons, List.disjoint_cons_left,
        List.disjoint_cons_right, List.mem_cons, Prod.mk.injEq, forall_eq_or_imp]
      constructor
      · rintro ⟨fits, loose, notSeen, allFit, allLoose, nodup, notAgain, disjoint⟩
        refine ⟨?_, ⟨loose, allLoose⟩, ⟨notAgain, nodup⟩, notSeen, disjoint⟩
        rintro field' child' (⟨rfl, rfl⟩ | placed)
        · exact fits
        · exact allFit field' child' placed
      · rintro ⟨allFit, ⟨loose, allLoose⟩, ⟨notAgain, nodup⟩, notSeen, disjoint⟩
        exact ⟨allFit field child (.inl ⟨rfl, rfl⟩), loose, notSeen,
          fun field' child' placed => allFit field' child' (.inr placed), allLoose, nodup,
          notAgain, disjoint⟩

/-- A node is added exactly if it may be. -/
theorem add_eq_ok_iff {tree grown : Tree} {node : Node} {id : NodeId} :
    tree.add node = .ok (id, grown) ↔
      tree.Attachable node ∧ id = tree.nextId ∧ grown = tree.attach node := by
  have checked : tree.checkPlacements [] node.placements = .ok () ↔ tree.Attachable node := by
    rw [checkPlacements_iff fun _ _ placed => Node.exists_accepts?_of_placement placed,
      Node.map_snd_placements]
    exact ⟨fun ⟨fits, loose, nodup, _⟩ => ⟨fits, loose, nodup⟩,
      fun attachable => ⟨attachable.fits, attachable.loose, attachable.nodup, by simp⟩⟩
  rw [← checked]
  simp only [add, bind_eq_ok_iff, pure, Except.pure, Except.ok.injEq, Prod.mk.injEq]
  constructor
  · rintro ⟨⟨⟩, checks, rfl, rfl⟩
    exact ⟨checks, rfl, rfl⟩
  · rintro ⟨checks, rfl, rfl⟩
    exact ⟨(), checks, rfl, rfl⟩

/-! ### The child of the root -/

section RootChild

variable {tree : Tree} {child : NodeId} (vacant : tree.node? .root = some (.root none))

include vacant

@[simp] theorem size_setRootChild : (tree.setRootChild child).size = tree.size := by
  simp [setRootChild, rootChild?, vacant]

theorem node?_setRootChild (id : NodeId) :
    (tree.setRootChild child).node? id =
      if id = .root then some (.root (some child)) else tree.node? id := by
  simp [setRootChild, rootChild?, vacant, node?_setNode _ _ _ _ (has_of_node? vacant)]

/-- The new child has the root as its parent; no other parent changes. -/
theorem parent?_setRootChild (present : tree.Has child) (id : NodeId) :
    (tree.setRootChild child).parent? id =
      if id = child then some .root else tree.parent? id := by
  have still : (tree.setNode .root (.root (some child))).Has child := by
    simpa [Has] using present
  simp [setRootChild, rootChild?, vacant, parent?_recordParent _ _ _ _ still]

/-- The root, which was empty, holds its new child, and every other node what it held. -/
theorem holds_setRootChild {parent held : NodeId} :
    (tree.setRootChild child).Holds parent held ↔
      (parent = .root ∧ held = child) ∨ tree.Holds parent held := by
  simp only [Holds, node?_setRootChild vacant]
  split
  · next same => simp [same, vacant, Node.childIds, Node.values, FieldValue.childIds]
  · next other => simp [other]

/-- Hanging a node that hangs nowhere under a root without child keeps a tree sound. -/
theorem Sound.setRootChild {node : Node} (sound : tree.Sound)
    (found : tree.node? child = some node) (notRoot : node.nodeClass ≠ .root)
    (loose : tree.parent? child = none) : (tree.setRootChild child).Sound := by
  have present : tree.Has child := has_of_node? found
  have notTop : child ≠ .root := by
    rintro rfl
    rw [vacant] at found
    cases found
    exact notRoot rfl
  have keeps : ∀ {id other}, tree.node? id = some other →
      ∃ now, (tree.setRootChild child).node? id = some now ∧
        now.nodeClass = other.nodeClass := by
    intro id other atId
    rw [node?_setRootChild vacant]
    split
    · next same =>
        rw [same, vacant] at atId
        cases atId
        exact ⟨_, rfl, rfl⟩
    · exact ⟨other, atId, rfl⟩
  have rootAnchored : (tree.setRootChild child).Anchored .root := by
    refine .top ?_
    rw [parent?_setRootChild vacant present, if_neg notTop.symm, sound.root_parent]
  refine .of_lookup ⟨some child, by simp [node?_setRootChild vacant]⟩ ?_ ?_ ?_ ?_
  · intro parent holder field held atParent placed
    rw [node?_setRootChild vacant] at atParent
    split at atParent
    · cases atParent
      simp only [Node.placements, Node.fields, Node.kind, Kind.fields, Node.values,
        FieldValue.childIds, List.zip_cons_cons, List.zip_nil_right, List.flatMap_cons,
        List.flatMap_nil, List.append_nil, Option.toList_some, List.map_cons, List.map_nil,
        List.mem_singleton, Prod.mk.injEq] at placed
      obtain ⟨rfl, rfl⟩ := placed
      obtain ⟨now, atNow, sameClass⟩ := keeps found
      refine ⟨now, atNow, .any, rfl, ?_⟩
      simp [NodeClass.accepts, sameClass, notRoot]
    · obtain ⟨other, atHeld, fits⟩ := sound.fits parent holder field held atParent placed
      obtain ⟨now, atNow, sameClass⟩ := keeps atHeld
      exact ⟨now, atNow, sameClass ▸ fits⟩
  · intro id holder atId
    rw [node?_setRootChild vacant] at atId
    split at atId
    · cases atId
      simp [Node.childIds, Node.values, FieldValue.childIds]
    · exact sound.nodup atId
  · intro parent held
    rw [parent?_setRootChild vacant present, holds_setRootChild vacant]
    by_cases same : held = child
    · have unheld : ¬ tree.Holds parent child := by
        rw [← sound.parent?_iff, loose]
        simp
      simp [same, unheld, eq_comm]
    · simp [same, sound.parent?_iff]
  · intro id
    induction sound.anchored id with
    | @top id recorded =>
        refine .of_parent?_eq fun parent now => ?_
        rw [parent?_setRootChild vacant present, recorded] at now
        split at now
        · cases now
          exact rootAnchored
        · cases now
    | @under id before recorded _ ih =>
        refine .of_parent?_eq fun parent now => ?_
        rw [parent?_setRootChild vacant present, recorded] at now
        split at now
        · cases now
          exact rootAnchored
        · cases now
          exact ih

end RootChild

end Tree

end SelectTree
