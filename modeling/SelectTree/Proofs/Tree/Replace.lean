/-
Module: SelectTree.Proofs.Tree.Replace
Purpose: putting a node that hangs nowhere in the place of a child keeps a tree sound.
Main exports: Tree.Exchange, Tree.Sound.exchange_of_replaceChildAndReparent,
  Tree.Exchange.sound_result
-/
import SelectTree.Proofs.Tree.Attach

namespace SelectTree

theorem Node.exists_eq_root {node : Node} (isRoot : node.kind = .root) :
    ∃ child, node = .root child := by
  cases node with
  | root child => exact ⟨child, rfl⟩
  | column column => cases column <;> cases isRoot
  | condition condition => cases condition <;> cases isRoot
  | relation relation => cases relation <;> cases isRoot
  | statement ctes selects orderBy options => cases isRoot
  | select setOperator top distinct columns sources pivot filter groupBy having => cases isRoot
  | element element => cases element <;> cases isRoot

namespace Tree

/-- A replacement that finds the old child is made in the first field that holds it, which admits
the new one. -/
theorem replaceChild_eq_some {tree replaced : Tree} {parent old new : NodeId}
    (outcome : tree.replaceChild parent old new = .ok (some replaced)) :
    ∃ node newNode index, tree.node? parent = some node ∧ tree.node? new = some newNode ∧
      node.fieldOf? old = some index ∧
      (∀ field, node.fields[index]? = some field → field.checkClass newNode.nodeClass = .ok ()) ∧
      replaced = tree.setNode parent (node.replaceIn index old new) := by
  simp only [replaceChild, bind_eq_ok_iff, refuse_eq_ok_iff, require_eq_ok_iff] at outcome
  obtain ⟨node, atParent, oldNode, _, newNode, atNew, _, rest⟩ := outcome
  cases place : node.fieldOf? old with
  | none =>
      rw [place] at rest
      cases rest
  | some index =>
      simp only [place] at rest
      refine ⟨node, newNode, index, atParent, atNew, place, ?_, ?_⟩
      · intro field atIndex
        simp only [atIndex, bind_eq_ok_iff] at rest
        obtain ⟨⟨⟩, admitted, _⟩ := rest
        exact admitted
      · cases atIndex : node.fields[index]? with
        | none =>
            rw [atIndex] at rest
            cases rest
            rfl
        | some field =>
            simp only [atIndex, bind_eq_ok_iff] at rest
            obtain ⟨_, _, same⟩ := rest
            cases same
            rfl

/-- What is moved hangs nowhere and is not above its new parent; both recorded parents change. -/
theorem replaceChildAndReparent_eq_ok {tree result : Tree} {parent old new : NodeId}
    (outcome : tree.replaceChildAndReparent parent old new = .ok result) :
    tree.parent? new = none ∧ tree.isAncestorOrSelf new parent = false ∧
      ∃ replaced, tree.replaceChild parent old new = .ok (some replaced) ∧
        result = (replaced.recordParent (some parent) new).recordParent none old := by
  simp only [replaceChildAndReparent, bind_eq_ok_iff, refuse_eq_ok_iff, require_eq_ok_iff]
    at outcome
  obtain ⟨_, _, loose, notBelow, moved, replaced, rest⟩ := outcome
  cases moved with
  | none => cases rest
  | some moved =>
      cases rest
      exact ⟨by simpa using loose, by simpa using notBelow, moved, replaced, rfl⟩

/-- What is known when one child of a node has taken the place of another. -/
structure Exchange (tree result : Tree) (parent old new : NodeId) (node changed newNode : Node)
    (field : FieldDescriptor) (before after : List (FieldDescriptor × NodeId)) : Prop where
  atParent : tree.node? parent = some node
  atNew : tree.node? new = some newNode
  /-- The new child hung nowhere. -/
  loose : tree.parent? new = none
  /-- The parent is not below the new child. -/
  notBelow : ∀ steps, tree.climb steps parent ≠ some new
  fits : field.Fits newNode.nodeClass
  sameKind : changed.kind = node.kind
  placements : node.placements = before ++ (field, old) :: after
  placementsChanged : changed.placements = before ++ (field, new) :: after
  node? : ∀ id, result.node? id = if id = parent then some changed else tree.node? id
  parent? : ∀ id, result.parent? id =
    if id = old then none else if id = new then some parent else tree.parent? id

/-- A replacement that is not refused exchanges two children. -/
theorem Sound.exchange_of_replaceChildAndReparent {tree result : Tree}
    {parent old new : NodeId} (sound : tree.Sound)
    (outcome : tree.replaceChildAndReparent parent old new = .ok result) :
    ∃ node changed newNode field before after,
      tree.Exchange result parent old new node changed newNode field before after := by
  obtain ⟨loose, notBelow, replaced, replaceOutcome, rfl⟩ := replaceChildAndReparent_eq_ok outcome
  obtain ⟨node, newNode, index, atParent, atNew, place, admits, rfl⟩ :=
    replaceChild_eq_some replaceOutcome
  obtain ⟨field, before, after, atIndex, placements, placementsChanged⟩ :=
    node.placements_replaceIn new place
  have oldPlaced : (field, old) ∈ node.placements := by simp [placements]
  obtain ⟨demanded, holdsChildren⟩ := Node.exists_accepts?_of_placement oldPlaced
  have hasOld : tree.Has old :=
    sound.has_of_mem atParent (Node.mem_childIds_of_placement oldPlaced)
  refine ⟨node, node.replaceIn index old new, newNode, field, before, after,
    { atParent, atNew, placements, placementsChanged, loose
      notBelow := ?_
      fits := (FieldDescriptor.Fits.checkClass_iff holdsChildren).1 (admits field atIndex)
      sameKind := Node.kind_replaceIn new
      node? := ?_
      parent? := ?_ }⟩
  · intro steps reached
    rw [sound.isAncestorOrSelf_iff.2 ⟨steps, reached⟩] at notBelow
    cases notBelow
  · intro id
    simp [node?_setNode _ _ _ _ (has_of_node? atParent)]
  · intro id
    rw [Tree.parent?_recordParent _ _ _ _ (by simpa [Has] using hasOld),
      Tree.parent?_recordParent _ _ _ _ (by simpa [Has] using has_of_node? atNew),
      parent?_setNode]

namespace Exchange

variable {tree result : Tree} {parent old new : NodeId} {node changed newNode : Node}
  {field : FieldDescriptor} {before after : List (FieldDescriptor × NodeId)}
  (exchange : tree.Exchange result parent old new node changed newNode field before after)

include exchange

/-- The old child stands between what is before and what is behind it. -/
theorem childIds : node.childIds = before.map Prod.snd ++ old :: after.map Prod.snd := by
  simp [← Node.map_snd_placements, exchange.placements]

/-- The new child stands where the old one stood. -/
theorem childIds_changed :
    changed.childIds = before.map Prod.snd ++ new :: after.map Prod.snd := by
  simp [← Node.map_snd_placements, exchange.placementsChanged]

/-- Apart from the two that are exchanged, the parent holds the same children. -/
theorem mem_childIds_changed {child : NodeId} (notOld : child ≠ old) (notNew : child ≠ new) :
    child ∈ changed.childIds ↔ child ∈ node.childIds := by
  simp [exchange.childIds, exchange.childIds_changed, notOld, notNew]

/-- Only what the parent holds has changed. -/
theorem holds_iff {holder child : NodeId} :
    result.Holds holder child ↔
      (holder = parent ∧ child ∈ changed.childIds) ∨
        (holder ≠ parent ∧ tree.Holds holder child) := by
  simp only [Holds, exchange.node?]
  split
  · next same => simp [same]
  · next other => simp [other]

variable (sound : tree.Sound)

include sound

theorem parent?_old : tree.parent? old = some parent :=
  sound.parent?_of_mem exchange.atParent (by simp [exchange.childIds])

theorem new_ne_old : new ≠ old := by
  intro same
  have recorded := exchange.parent?_old sound
  rw [← same, exchange.loose] at recorded
  cases recorded

/-- Nothing held the new child before, since it hung nowhere. -/
theorem not_holds_new {holder : NodeId} : ¬ tree.Holds holder new := by
  rw [← sound.parent?_iff, exchange.loose]
  exact nofun

theorem new_not_mem : new ∉ node.childIds :=
  fun held => exchange.not_holds_new sound ⟨node, exchange.atParent, held⟩

theorem old_not_mem : old ∉ changed.childIds := by
  have nodup := sound.nodup exchange.atParent
  rw [exchange.childIds, List.nodup_middle, List.nodup_cons] at nodup
  rw [exchange.childIds_changed]
  simpa [(exchange.new_ne_old sound).symm] using nodup.1

/-- The old child was there once and the new one was not there, so no child is there twice. -/
theorem nodup_changed : changed.childIds.Nodup := by
  have nodup := sound.nodup exchange.atParent
  have absent := exchange.new_not_mem sound
  rw [exchange.childIds, List.nodup_middle, List.nodup_cons] at nodup
  rw [exchange.childIds] at absent
  rw [exchange.childIds_changed, List.nodup_middle, List.nodup_cons]
  refine ⟨fun member => absent ?_, nodup.2⟩
  rcases List.mem_append.1 member with front | back
  · exact List.mem_append_left _ front
  · exact List.mem_append_right _ (List.mem_cons_of_mem _ back)

/-- After the exchange, recorded parents and held children agree again. -/
theorem parent?_iff (holder child : NodeId) :
    result.parent? child = some holder ↔ result.Holds holder child := by
  rw [exchange.parent?, exchange.holds_iff]
  by_cases isOld : child = old
  · have onlyParent : ¬ (holder ≠ parent ∧ tree.Holds holder old) := by
      rintro ⟨other, held⟩
      rw [← sound.parent?_iff, exchange.parent?_old sound] at held
      exact other (Option.some.inj held).symm
    simp [isOld, exchange.old_not_mem sound, onlyParent]
  · by_cases isNew : child = new
    · have placed : new ∈ changed.childIds := by simp [exchange.childIds_changed]
      simp [isNew, exchange.new_ne_old sound, exchange.not_holds_new sound, placed, eq_comm]
    · rw [if_neg isOld, if_neg isNew, exchange.mem_childIds_changed isOld isNew,
        sound.parent?_iff]
      by_cases isParent : holder = parent
      · simp [isParent, Holds, exchange.atParent]
      · simp [isParent]

/-- Ways up that avoid the new child are as before, and one of them leads on from the new
child. -/
theorem anchored (id : NodeId) : result.Anchored id := by
  have avoiding : ∀ {id}, tree.Anchored id → (∀ steps, tree.climb steps id ≠ some new) →
      result.Anchored id := by
    intro id before
    induction before with
    | @top id recorded =>
        intro avoids
        refine .of_parent?_eq fun above now => ?_
        have notNew : id ≠ new := fun same => avoids 0 (by rw [same]; rfl)
        rw [exchange.parent?, if_neg notNew, recorded] at now
        split at now <;> cases now
    | @under id above recorded _ ih =>
        intro avoids
        refine .of_parent?_eq fun above' now => ?_
        have notNew : id ≠ new := fun same => avoids 0 (by rw [same]; rfl)
        rw [exchange.parent?, if_neg notNew, recorded] at now
        split at now
        · cases now
        · cases now
          refine ih fun steps reached => avoids (steps + 1) ?_
          rw [climb_succ, recorded, Option.bind_some, reached]
  have anchoredNew : result.Anchored new := by
    refine .under ?_ (avoiding (sound.anchored parent) exchange.notBelow)
    rw [exchange.parent?, if_neg (exchange.new_ne_old sound), if_pos rfl]
  induction sound.anchored id with
  | @top id recorded =>
      by_cases isNew : id = new
      · exact isNew ▸ anchoredNew
      · refine .top ?_
        rw [exchange.parent?, if_neg isNew, recorded]
        split <;> rfl
  | @under id above recorded _ ih =>
      by_cases isNew : id = new
      · exact isNew ▸ anchoredNew
      · refine .of_parent?_eq fun above' now => ?_
        rw [exchange.parent?, if_neg isNew, recorded] at now
        split at now
        · cases now
        · cases now
          exact ih

/-- Exchanging two children keeps a tree sound. -/
theorem sound_result : result.Sound := by
  refine .of_lookup ?_ ?_ ?_ (exchange.parent?_iff sound) (exchange.anchored sound)
  · obtain ⟨child, isRoot⟩ := sound.root_node
    rw [exchange.node?]
    split
    · next same =>
        have kind : changed.kind = .root := by
          rw [exchange.sameKind]
          rw [same, exchange.atParent] at isRoot
          cases isRoot
          rfl
        obtain ⟨inner, rfl⟩ := Node.exists_eq_root kind
        exact ⟨inner, rfl⟩
    · exact ⟨child, isRoot⟩
  · exact sound.fitting.exchange exchange.atParent exchange.atNew exchange.fits
      exchange.sameKind exchange.placements exchange.placementsChanged exchange.node?
  · intro id found atId
    rw [exchange.node?] at atId
    split at atId
    · cases atId
      exact exchange.nodup_changed sound
    · exact sound.nodup atId

end Exchange

end Tree

end SelectTree
