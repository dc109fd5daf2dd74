/-
Module: SelectTree.Proofs.Layout.Sprout
Purpose: runs of nodes in which every node adopts nodes that hang nowhere by then, and what
  becomes of a sound tree to which such a run is added.
Main exports: Node.demands, Sprout, SelfContained, Sprout.selfContained, Tree.Bears,
  Sprout.bears, Layout.Yields

The nodes of a run that hang nowhere at its end are its stems.  A stem is known by its number and
its class, which is all that a later node needs to adopt it.
-/
import SelectTree.Proofs.Tree.Clone

namespace SelectTree

/-- The number of a node and its class. -/
abbrev Stem := NodeId × NodeClass

namespace Node

/-- The children of a node with the classes that their fields demand. -/
def demands (node : Node) : List Stem :=
  node.placements.map fun (field, child) => (child, field.type.accepts?.getD .any)

theorem map_fst_demands (node : Node) : node.demands.map Prod.fst = node.childIds := by
  rw [← map_snd_placements, demands, List.map_map]
  rfl

end Node

theorem Node.exists_mem_demands {node : Node} {child : NodeId} (held : child ∈ node.childIds) :
    ∃ demanded, (child, demanded) ∈ node.demands := by
  rw [← map_fst_demands] at held
  obtain ⟨⟨_, demanded⟩, member, rfl⟩ := List.mem_map.1 held
  exact ⟨demanded, member⟩

/-- No field is for a root. -/
theorem Kind.accepts?_ne_root {kind : Kind} {field : FieldDescriptor}
    (declared : field ∈ kind.fields) : field.type.accepts? ≠ some .root := by
  revert field
  cases kind <;> decide

theorem Node.fits_of_demands {node : Node} {field : FieldDescriptor} {child : NodeId}
    (placed : (field, child) ∈ node.placements) :
    ∃ demanded, (child, demanded) ∈ node.demands ∧ field.Fits demanded := by
  obtain ⟨demanded, holdsChildren⟩ := exists_accepts?_of_placement placed
  refine ⟨demanded, ?_, demanded, holdsChildren, ?_⟩
  · exact List.mem_map.2 ⟨_, placed, by simp [holdsChildren]⟩
  · have declared : field ∈ node.kind.fields := by
      simp only [placements, List.mem_flatMap, List.mem_map, Prod.mk.injEq] at placed
      obtain ⟨⟨field', value⟩, paired, _, _, rfl, _⟩ := placed
      exact (List.of_mem_zip paired).1
    have notRoot : demanded ≠ .root := by
      rintro rfl
      exact Kind.accepts?_ne_root declared holdsChildren
    simp [NodeClass.accepts, notRoot]

/-- Nodes to be added behind a number of others, and the stems they leave.  A node adopts the last
of the stems before it, as its fields demand, and is a stem itself. -/
inductive Sprout (start : Nat) : List Node → List Stem → Prop where
  | nil : Sprout start [] []
  | emit {nodes : List Node} {kept : List Stem} {node : Node} :
      Sprout start nodes (kept ++ node.demands) →
      Sprout start (nodes ++ [node]) (kept ++ [(⟨start + nodes.length⟩, node.nodeClass)])
  | perm {nodes : List Node} {stems others : List Stem} :
      Sprout start nodes stems → stems.Perm others → Sprout start nodes others

/-- Every node has children only among the nodes of the run before it. -/
def SelfContained (start : Nat) (nodes : List Node) : Prop :=
  ∀ index node, nodes[index]? = some node → ∀ child ∈ node.childIds,
    start ≤ child.index ∧ child.index < start + index

namespace SelfContained

theorem nil {start : Nat} : SelfContained start [] := by
  intro index node found
  cases found

theorem concat {start : Nat} {nodes : List Node} {node : Node}
    (contained : SelfContained start nodes)
    (inside : ∀ child ∈ node.childIds,
      start ≤ child.index ∧ child.index < start + nodes.length) :
    SelfContained start (nodes ++ [node]) := by
  intro index found atIndex child held
  rcases Nat.lt_or_ge index nodes.length with lt | ge
  · rw [List.getElem?_append_left lt] at atIndex
    exact contained index found atIndex child held
  · rw [List.getElem?_append_right ge] at atIndex
    obtain ⟨bound, rfl⟩ := List.getElem?_eq_some_iff.1 atIndex
    have last : index = nodes.length := by
      simp only [List.length_singleton] at bound
      omega
    simp only [List.getElem_singleton] at held
    rw [last]
    exact inside child held

theorem append {start : Nat} {first second : List Node} (one : SelfContained start first)
    (two : SelfContained (start + first.length) second) :
    SelfContained start (first ++ second) := by
  intro index node found child held
  rcases Nat.lt_or_ge index first.length with lt | ge
  · rw [List.getElem?_append_left lt] at found
    exact one index node found child held
  · rw [List.getElem?_append_right ge] at found
    have bounds := two (index - first.length) node found child held
    omega

end SelfContained

namespace Sprout

variable {start : Nat} {nodes : List Node} {stems : List Stem}

/-- Stems are nodes of the run. -/
theorem bounds (sprout : Sprout start nodes stems) :
    ∀ stem ∈ stems, start ≤ stem.1.index ∧ stem.1.index < start + nodes.length := by
  induction sprout with
  | nil => simp
  | emit _ ih =>
      intro stem member
      rw [List.length_append, List.length_singleton]
      rcases List.mem_append.1 member with kept | last
      · have inside := ih stem (List.mem_append_left _ kept)
        omega
      · rw [List.mem_singleton.1 last]
        simp only
        omega
  | perm _ same ih => exact fun stem member => ih stem (same.mem_iff.2 member)

theorem selfContained (sprout : Sprout start nodes stems) : SelfContained start nodes := by
  induction sprout with
  | nil => exact .nil
  | @emit nodes kept node sprout ih =>
      refine ih.concat fun child held => ?_
      rw [← Node.map_fst_demands] at held
      obtain ⟨stem, adopted, rfl⟩ := List.mem_map.1 held
      exact sprout.bounds stem (List.mem_append_right _ adopted)
  | perm _ _ ih => exact ih

end Sprout

/-! ### Runs of nodes added to sound trees -/

/-- A sound tree in which the nodes that are newer than an earlier tree stand behind their children
and hang somewhere, except for the stems. -/
structure Tree.Bears (tree grown : Tree) (stems : List Stem) : Prop extends
    Tree.Grown tree grown where
  nodup : (stems.map Prod.fst).Nodup
  isStem : ∀ stem ∈ stems, tree.size ≤ stem.1.index ∧
    ∃ node, grown.node? stem.1 = some node ∧ node.nodeClass = stem.2
  loose_iff : ∀ id, tree.size ≤ id.index → grown.Has id →
    (grown.parent? id = none ↔ id ∈ stems.map Prod.fst)
  upward : ∀ child parent, grown.parent? child = some parent → tree.size ≤ child.index →
    child.index < parent.index

namespace Tree.Bears

variable {tree grown : Tree} {kept : List Stem} {node : Node}
  (bears : tree.Bears grown (kept ++ node.demands))

include bears

theorem attachable : grown.Attachable node where
  fits := by
    intro field child placed
    obtain ⟨demanded, adopted, fits⟩ := Node.fits_of_demands placed
    obtain ⟨_, found, atChild, class_eq⟩ :=
      bears.isStem (child, demanded) (List.mem_append_right _ adopted)
    exact ⟨found, atChild, class_eq ▸ fits⟩
  loose := by
    intro child held
    obtain ⟨demanded, adopted⟩ := Node.exists_mem_demands held
    have member := List.mem_append_right kept adopted
    obtain ⟨new, found, atChild, _⟩ := bears.isStem (child, demanded) member
    exact (bears.loose_iff child new (has_of_node? atChild)).2
      (List.mem_map.2 ⟨_, member, rfl⟩)
  nodup := by
    have nodup := bears.nodup
    rw [List.map_append, Node.map_fst_demands] at nodup
    exact (List.nodup_append'.1 nodup).2.1

theorem new_of_mem_childIds {child : NodeId} (held : child ∈ node.childIds) :
    tree.size ≤ child.index := by
  obtain ⟨demanded, adopted⟩ := Node.exists_mem_demands held
  exact (bears.isStem (child, demanded) (List.mem_append_right _ adopted)).1

/-- A node that adopts the last stems becomes a stem. -/
theorem attach :
    tree.Bears (grown.attach node) (kept ++ [(grown.nextId, node.nodeClass)]) where
  toGrown := bears.toGrown.attach bears.attachable fun _ held => bears.new_of_mem_childIds held
  nodup := by
    have nodup := bears.nodup
    rw [List.map_append] at nodup
    rw [List.map_append]
    refine List.nodup_append'.2 ⟨(List.nodup_append'.1 nodup).1, by simp, ?_⟩
    intro id member last
    obtain ⟨stem, isKept, rfl⟩ := List.mem_map.1 member
    obtain ⟨_, found, atStem, _⟩ := bears.isStem stem (List.mem_append_left _ isKept)
    have inside : stem.1.index < grown.size := has_of_node? atStem
    simp only [List.map_cons, List.map_nil, List.mem_singleton] at last
    simp [last, nextId] at inside
  isStem := by
    intro stem member
    rcases List.mem_append.1 member with isKept | last
    · obtain ⟨new, found, atStem, class_eq⟩ :=
        bears.isStem stem (List.mem_append_left _ isKept)
      refine ⟨new, found, ?_, class_eq⟩
      rw [node?_attach_of_has grown node (has_of_node? atStem), atStem]
    · rw [List.mem_singleton.1 last]
      exact ⟨bears.size_le, node, node?_attach_nextId grown node, rfl⟩
  loose_iff := by
    intro id new present
    have nodup := bears.nodup
    rw [List.map_append, Node.map_fst_demands] at nodup
    rw [bears.attachable.parent?_attach, List.map_append]
    by_cases adopted : id ∈ node.childIds
    · have notKept : id ∉ kept.map Prod.fst :=
        fun isKept => (List.nodup_append'.1 nodup).2.2 isKept adopted
      have notLast : id ≠ grown.nextId := by
        rintro rfl
        exact bears.attachable.nextId_not_mem adopted
      simp only [if_pos adopted, reduceCtorEq, false_iff, List.mem_append, not_or]
      exact ⟨notKept, by simpa using notLast⟩
    · rw [if_neg adopted]
      by_cases last : id = grown.nextId
      · have absent : grown.parent? grown.nextId = none :=
          parent?_eq_none_of_size_le (by simp [nextId])
        simp [last, absent]
      · have before : grown.Has id := by
          have differ : id.index ≠ grown.size := fun same => last (NodeId.ext_index same)
          simp only [Has, size_attach] at present ⊢
          omega
        rw [bears.loose_iff id new before, List.map_append, Node.map_fst_demands]
        simp only [List.mem_append, adopted, or_false, List.map_cons, List.map_nil,
          List.mem_singleton, last]
  upward := by
    intro child parent recorded new
    rw [bears.attachable.parent?_attach] at recorded
    split at recorded
    · next held =>
        cases recorded
        exact bears.attachable.has held
    · exact bears.upward child parent recorded new

end Tree.Bears

/-- A run of nodes added to a sound tree leaves a sound tree with its stems. -/
theorem Sprout.bears {tree : Tree} {nodes : List Node} {stems : List Stem} (sound : tree.Sound)
    (sprout : Sprout tree.size nodes stems) : tree.Bears (tree.attachAll nodes) stems := by
  induction sprout with
  | nil =>
      refine { toGrown := .refl sound, nodup := .nil, isStem := by simp, loose_iff := ?_,
               upward := ?_ }
      · intro id new present
        exact absurd present (Nat.not_lt.2 new)
      · intro child parent recorded new
        exact absurd (Tree.has_of_parent? recorded) (Nat.not_lt.2 new)
  | @emit nodes kept node _ ih =>
      have next : (tree.attachAll nodes).nextId = ⟨tree.size + nodes.length⟩ := by
        simp [Tree.nextId]
      rw [Tree.attachAll_concat, ← next]
      exact ih.attach
  | perm _ same ih =>
      exact
        { toGrown := ih.toGrown
          nodup := (same.map _).nodup_iff.1 ih.nodup
          isStem := fun stem member => ih.isStem stem (same.mem_iff.2 member)
          loose_iff := fun id new present =>
            (ih.loose_iff id new present).trans (same.map _).mem_iff
          upward := ih.upward }

/-! ### Layouts -/

namespace Layout

variable {α β : Type} {stems : List Stem} {layout : Layout α} {outcome : α → List Stem}

/-- Behind nodes with these stems last, the nodes of a layout leave stems named by its result. -/
def Yields (stems : List Stem) (layout : Layout α) (outcome : α → List Stem) : Prop :=
  ∀ start nodes kept, Sprout start nodes (kept ++ stems) →
    Sprout start (nodes ++ (layout.run (start + nodes.length)).2)
      (kept ++ outcome (layout.run (start + nodes.length)).1)

namespace Yields

/-- The nodes of a layout that needs no stems, by themselves. -/
theorem sprout (yields : Yields [] layout outcome) (start : Nat) :
    Sprout start (layout.run start).2 (outcome (layout.run start).1) := by
  simpa using yields start [] [] .nil

theorem pure {value : α} (left : stems = outcome value) :
    Yields stems (Pure.pure value) outcome := by
  intro start nodes kept sprout
  rw [left] at sprout
  simpa using sprout

theorem bind {next : α → Layout β} {final : β → List Stem}
    (one : Yields stems layout outcome)
    (two : ∀ value, Yields (outcome value) (next value) final) :
    Yields stems (layout >>= next) final := by
  intro start nodes kept sprout
  have both := two _ start _ kept (one start nodes kept sprout)
  simpa [Nat.add_assoc] using both

/-- Stems that a layout does not touch. -/
theorem frame (yields : Yields stems layout outcome) (others : List Stem) :
    Yields (others ++ stems) layout fun value => others ++ outcome value := by
  intro start nodes kept sprout
  rw [← List.append_assoc] at sprout
  have framed := yields start nodes (kept ++ others) sprout
  rwa [List.append_assoc] at framed

/-- A part that needs no stems leaves its own behind those that are there. -/
theorem next {continue' : α → Layout β} {final : β → List Stem}
    (part : Yields [] layout outcome)
    (rest : ∀ value, Yields (stems ++ outcome value) (continue' value) final) :
    Yields stems (layout >>= continue') final := by
  have framed := part.frame stems
  rw [List.append_nil] at framed
  exact framed.bind rest

/-- A node adopts the stems that its fields demand. -/
theorem emit {node : Node} {nodeClass : NodeClass} (adopts : stems = node.demands)
    (isClass : node.nodeClass = nodeClass) :
    Yields stems (Layout.emit node) fun id => [(id, nodeClass)] := by
  intro start nodes kept sprout
  rw [adopts] at sprout
  rw [← isClass]
  exact .emit sprout

theorem map {convert : α → β} {final : β → List Stem}
    (yields : Yields stems layout fun value => final (convert value)) :
    Yields stems (convert <$> layout) final := by
  intro start nodes kept sprout
  simpa using yields start nodes kept sprout

/-- Stems in another order. -/
theorem perm {others : List Stem} (same : others.Perm stems)
    (yields : Yields stems layout outcome) : Yields others layout outcome := by
  intro start nodes kept sprout
  exact yields start nodes kept (sprout.perm (same.append_left kept))

/-- The stems of a result in another order. -/
theorem rearrange {final : α → List Stem} (yields : Yields stems layout outcome)
    (same : ∀ value, (outcome value).Perm (final value)) : Yields stems layout final := by
  intro start nodes kept sprout
  exact (yields start nodes kept sprout).perm ((same _).append_left kept)

/-- The stems of a result, said in another way. -/
theorem congr {final : α → List Stem} (yields : Yields stems layout outcome)
    (same : ∀ start, outcome (layout.run start).1 = final (layout.run start).1) :
    Yields stems layout final := by
  intro start nodes kept sprout
  rw [← same]
  exact yields start nodes kept sprout

end Yields

end Layout

end SelectTree
