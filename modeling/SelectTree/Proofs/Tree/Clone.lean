/-
Module: SelectTree.Proofs.Tree.Clone
Purpose: copying keeps a tree sound and touches nothing that was there before.
Main exports: Tree.Grown, Tree.Copies, Tree.Clones, Tree.clones_cloneDownTo, Tree.Sound.clone

Copies are made children first, and a copied child hangs nowhere until the copy of its parent
adopts it.  So the statement about a single step is about the tree in which the step begins, and
about copies that are newer than that tree.
-/
import SelectTree.Proofs.Tree.Attach

namespace SelectTree

/-! ### Contents of the same shape -/

/-- Contents of the same type with as many children. -/
structure FieldValue.SameShape (value copy : FieldValue) : Prop where
  holds : ∀ type : FieldType, type.holds copy = type.holds value
  length_eq : value.childIds.length = copy.childIds.length

/-- Contents of the same shape fit the same fields. -/
theorem Typed.of_sameShape {fields : List FieldDescriptor} {values copies : List FieldValue}
    (typed : Typed fields values) (sameShape : List.Forall₂ FieldValue.SameShape values copies) :
    Typed fields copies := by
  induction typed generalizing copies with
  | nil =>
      cases sameShape
      exact .nil
  | cons holds _ ih =>
      cases sameShape with
      | cons same others => exact .cons ((same.holds _).trans holds) (ih others)

namespace Node

/-- Contents of the same shape put their children into the same fields. -/
theorem map_fst_pair {values copies : List FieldValue}
    (sameShape : List.Forall₂ FieldValue.SameShape values copies)
    (fields : List FieldDescriptor) :
    (pair fields copies).map Prod.fst = (pair fields values).map Prod.fst := by
  induction sameShape generalizing fields with
  | nil => rfl
  | @cons value copy values copies same _ ih =>
      cases fields with
      | nil => rfl
      | cons field fields =>
          have here : ∀ ids : List NodeId,
              (ids.map fun child => (field, child)).map Prod.fst =
                List.replicate ids.length field := by
            intro ids
            simp [Function.comp_def, List.map_const']
          have split : ∀ (value : FieldValue) (values : List FieldValue),
              (pair (field :: fields) (value :: values)).map Prod.fst =
                List.replicate value.childIds.length field ++
                  (pair fields values).map Prod.fst := by
            intro value values
            rw [← here]
            simp [pair]
          rw [split, split, same.length_eq, ih fields]

/-- If the children of two lists of contents correspond one to one, each child has its
counterpart in the same field. -/
theorem exists_counterpart {fields : List FieldDescriptor} {values copies : List FieldValue}
    {related : NodeId → NodeId → Prop} {field : FieldDescriptor} {copy : NodeId}
    (sameShape : List.Forall₂ FieldValue.SameShape values copies)
    (correspond : List.Forall₂ related ((pair fields values).map Prod.snd)
      ((pair fields copies).map Prod.snd))
    (placed : (field, copy) ∈ pair fields copies) :
    ∃ original, (field, original) ∈ pair fields values ∧ related original copy := by
  have sameFields := map_fst_pair sameShape fields
  obtain ⟨index, bound, here⟩ := List.getElem_of_mem placed
  have lengths : (pair fields copies).length = (pair fields values).length := by
    simpa using congrArg List.length sameFields
  have inside : index < (pair fields values).length := lengths ▸ bound
  have sameField : (pair fields values)[index].1 = field := by
    have atIndex := List.getElem_of_eq sameFields (i := index) (by simpa using bound)
    simpa [here] using atIndex.symm
  refine ⟨(pair fields values)[index].2, ?_, ?_⟩
  · rw [← sameField]
    exact List.getElem_mem inside
  · have atIndex := (List.forall₂_iff_get.1 correspond).2 index (by simpa using inside)
      (by simpa using bound)
    simpa [here] using atIndex

end Node

namespace Tree

/-! ### What copying does -/

/-- A sound tree with everything of an earlier one in it, unchanged. -/
structure Grown (before after : Tree) : Prop where
  sound : after.Sound
  size_le : before.size ≤ after.size
  node? : ∀ id, before.Has id → after.node? id = before.node? id
  parent? : ∀ id, before.Has id → after.parent? id = before.parent? id

/-- The copy is a node of the class of the original. -/
def SameClass (before after : Tree) (original copy : NodeId) : Prop :=
  ∃ node copied, before.node? original = some node ∧ after.node? copy = some copied ∧
    copied.nodeClass = node.nodeClass

/-- New nodes that hang nowhere, one for each original and of its class. -/
structure Copies (before after : Tree) (originals copies : List NodeId) : Prop where
  fresh : ∀ copy ∈ copies, before.size ≤ copy.index
  loose : ∀ copy ∈ copies, after.parent? copy = none
  nodup : copies.Nodup
  sameClass : List.Forall₂ (SameClass before after) originals copies

/-- From every sound tree that has the originals a copying action leads to a tree that has grown,
and its results name copies of the originals. -/
def Clones {α : Type} (action : Copying α) (originals : List NodeId) (names : α → List NodeId)
    (shape : α → Prop) : Prop :=
  ∀ tree : Tree, tree.Sound → (∀ original ∈ originals, tree.Has original) →
    Grown tree (action.run.run tree).2 ∧
      ∀ value, (action.run.run tree).1 = some value →
        shape value ∧ Copies tree (action.run.run tree).2 originals (names value)

namespace Grown

theorem refl {tree : Tree} (sound : tree.Sound) : Grown tree tree :=
  { sound, size_le := le_rfl, node? := fun _ _ => rfl, parent? := fun _ _ => rfl }

variable {first second third : Tree} (one : Grown first second)

include one

theorem has {id : NodeId} (present : first.Has id) : second.Has id :=
  Nat.lt_of_lt_of_le present one.size_le

/-- Adding a node adopts children that are new. -/
theorem attach {node : Node} (attachable : second.Attachable node)
    (fresh : ∀ child ∈ node.childIds, first.size ≤ child.index) :
    Grown first (second.attach node) where
  sound := one.sound.attach attachable
  size_le := by
    have le := one.size_le
    simp only [size_attach]
    omega
  node? := fun id present => by
    rw [node?_attach_of_has second node (one.has present), one.node? id present]
  parent? := fun id present => by
    have old : id ∉ node.childIds := fun held => absurd present (Nat.not_lt.2 (fresh id held))
    rw [attachable.parent?_attach, if_neg old, one.parent? id present]

/-- What grows out of grown trees has grown out of the first one. -/
theorem trans (two : Grown second third) : Grown first third where
  sound := two.sound
  size_le := le_trans one.size_le two.size_le
  node? := fun id present => by rw [two.node? id (one.has present), one.node? id present]
  parent? := fun id present => by rw [two.parent? id (one.has present), one.parent? id present]

end Grown

namespace Copies

variable {first second third : Tree} {originals copies : List NodeId}

theorem nil : Copies first second [] [] :=
  { fresh := by simp, loose := by simp, nodup := .nil, sameClass := .nil }

theorem length_eq (made : Copies first second originals copies) :
    originals.length = copies.length :=
  made.sameClass.length_eq

theorem has (made : Copies first second originals copies) {copy : NodeId}
    (member : copy ∈ copies) : second.Has copy := by
  obtain ⟨_, _, _, copied, _, atCopy, _⟩ := exists_left_of_mem made.sameClass member
  exact has_of_node? atCopy

/-- A node that was just added is the only copy of its original. -/
theorem single {id : NodeId} {node copied : Node} (grown : Grown first second)
    (attachable : second.Attachable copied) (atId : first.node? id = some node)
    (sameClass : copied.nodeClass = node.nodeClass) :
    Copies first (second.attach copied) [id] [second.nextId] where
  fresh := by simpa [nextId] using grown.size_le
  loose := by simpa using attachable.parent?_nextId
  nodup := List.nodup_singleton _
  sameClass :=
    .cons ⟨node, copied, atId, node?_attach_nextId second copied, sameClass⟩ .nil

/-- Copies made in one step and copies made in the next. -/
theorem append {moreOriginals moreCopies : List NodeId} (grown : Grown first second)
    (grownOn : Grown second third) (known : ∀ original ∈ moreOriginals, first.Has original)
    (made : Copies first second originals copies)
    (madeOn : Copies second third moreOriginals moreCopies) :
    Copies first third (originals ++ moreOriginals) (copies ++ moreCopies) where
  fresh := by
    intro copy member
    rcases List.mem_append.1 member with early | late
    · exact made.fresh copy early
    · exact le_trans grown.size_le (madeOn.fresh copy late)
  loose := by
    intro copy member
    rcases List.mem_append.1 member with early | late
    · rw [grownOn.parent? copy (made.has early), made.loose copy early]
    · exact madeOn.loose copy late
  nodup := by
    refine List.nodup_append'.2 ⟨made.nodup, madeOn.nodup, ?_⟩
    intro copy early late
    exact absurd (made.has early) (Nat.not_lt.2 (madeOn.fresh copy late))
  sameClass := by
    refine List.rel_append ?_ ?_
    · refine made.sameClass.imp fun original copy same => ?_
      obtain ⟨node, copied, atOriginal, atCopy, class_eq⟩ := same
      refine ⟨node, copied, atOriginal, ?_, class_eq⟩
      rw [grownOn.node? copy (has_of_node? atCopy), atCopy]
    · refine List.forall₂_iff_get.2 ⟨madeOn.length_eq, fun index bound bound' => ?_⟩
      obtain ⟨node, copied, atOriginal, atCopy, class_eq⟩ :=
        (List.forall₂_iff_get.1 madeOn.sameClass).2 index bound bound'
      refine ⟨node, copied, ?_, atCopy, class_eq⟩
      rw [← grown.node? _ (known _ (List.get_mem _ _)), atOriginal]

end Copies

/-! ### Composing copying actions -/

namespace Clones

variable {α β γ : Type} {originals moreOriginals : List NodeId} {names : α → List NodeId}
  {moreNames : β → List NodeId} {allNames : γ → List NodeId} {shape : α → Prop}
  {moreShape : β → Prop} {allShape : γ → Prop}

/-- Copying stops at the first child that is not there. -/
theorem run_bind (first : Copying α) (next : α → Copying β) (tree : Tree) :
    (first >>= next).run.run tree =
      match first.run.run tree with
      | (some value, grown) => (next value).run.run grown
      | (none, grown) => (none, grown) := by
  rw [OptionT.run_bind, Option.elimM, StateT.run_bind]
  rcases first.run.run tree with ⟨_ | value, grown⟩ <;> rfl

theorem pure {value : α} (nothing : names value = []) (shaped : shape value) :
    Clones (pure value) [] names shape := by
  intro tree sound _
  refine ⟨.refl sound, fun result same => ?_⟩
  cases same
  rw [nothing]
  exact ⟨shaped, .nil⟩

/-- One action after the other. -/
theorem both {first : Copying α} {second : Copying β} {join : α → β → γ}
    (one : Clones first originals names shape)
    (two : Clones second moreOriginals moreNames moreShape)
    (named : ∀ value other, allNames (join value other) = names value ++ moreNames other)
    (shaped : ∀ value other, shape value → moreShape other →
      originals.length = (names value).length → allShape (join value other)) :
    Clones (do
      let value ← first
      let other ← second
      return join value other) (originals ++ moreOriginals) allNames allShape := by
  intro tree sound known
  obtain ⟨grown, results⟩ := one tree sound
    fun original member => known original (List.mem_append_left _ member)
  rw [run_bind]
  rcases outcome : first.run.run tree with ⟨_ | value, middle⟩
  · rw [outcome] at grown
    exact ⟨grown, fun result impossible => by cases impossible⟩
  · rw [outcome] at grown results
    obtain ⟨isShaped, made⟩ := results value rfl
    have knownBefore := fun original member =>
      known original (List.mem_append_right originals member)
    obtain ⟨grownOn, resultsOn⟩ := two middle grown.sound
      fun original member => grown.has (knownBefore original member)
    simp only [run_bind]
    rcases outcomeOn : second.run.run middle with ⟨_ | other, last⟩
    · rw [outcomeOn] at grownOn
      exact ⟨grown.trans grownOn, fun result impossible => by cases impossible⟩
    · rw [outcomeOn] at grownOn resultsOn
      obtain ⟨isShapedOn, madeOn⟩ := resultsOn other rfl
      refine ⟨grown.trans grownOn, fun result same => ?_⟩
      cases same
      rw [named]
      exact ⟨shaped value other isShaped isShapedOn made.length_eq,
        .append grown grownOn knownBefore made madeOn⟩

/-- A result in another form. -/
theorem map {action : Copying α} {convert : α → β}
    (clones : Clones action originals names shape)
    (named : ∀ value, moreNames (convert value) = names value)
    (shaped : ∀ value, shape value → originals.length = (names value).length →
      moreShape (convert value)) :
    Clones (do
      let value ← action
      return convert value) originals moreNames moreShape := by
  intro tree sound known
  obtain ⟨grown, results⟩ := clones tree sound known
  rw [run_bind]
  rcases outcome : action.run.run tree with ⟨_ | value, after⟩
  · rw [outcome] at grown
    exact ⟨grown, fun result impossible => by cases impossible⟩
  · rw [outcome] at grown results
    obtain ⟨isShaped, made⟩ := results value rfl
    refine ⟨grown, fun result same => ?_⟩
    cases same
    rw [named]
    exact ⟨shaped value isShaped made.length_eq, made⟩

/-- One action for each item of a list. -/
theorem mapM {items : List α} {action : α → Copying β} {originalsOf : α → List NodeId}
    {related : α → β → Prop}
    (clones : ∀ item, Clones (action item) (originalsOf item) moreNames (related item)) :
    Clones (items.mapM action) (items.flatMap originalsOf) (·.flatMap moreNames)
      (List.Forall₂ related items) := by
  induction items with
  | nil => exact .pure rfl .nil
  | cons item items ih =>
      rw [List.mapM_cons]
      exact .both (clones item) ih (fun value others => rfl)
        fun value others isRelated areRelated _ => .cons isRelated areRelated

end Clones

/-! ### The rules of copying -/

section CloneDownTo

variable {cloneNode : NodeId → Copying NodeId}
  (cloneNodes : ∀ id, Clones (cloneNode id) [id] (fun copy => [copy]) fun _ => True)

include cloneNodes

/-- A slot is copied with its child, if it has one. -/
theorem clones_slot (slot : Slot) :
    Clones (slot.mapM cloneNode) slot.toList Option.toList fun _ => True := by
  cases slot with
  | none => exact .pure rfl trivial
  | some id => exact .map (cloneNodes id) (fun _ => rfl) fun _ _ _ => trivial

/-- The contents of a field are copied with their children and keep their shape. -/
theorem clones_cloneValue (value : FieldValue) :
    Clones (cloneValue cloneNode value) value.childIds FieldValue.childIds
      value.SameShape := by
  cases value with
  | child slot =>
      refine .map (clones_slot cloneNodes slot) (fun _ => rfl) fun copy _ sameLength => ?_
      exact ⟨fun type => by cases type <;> rfl, sameLength⟩
  | children slots =>
      have slotsOf : ∀ slots : List Slot,
          (FieldValue.children slots).childIds = slots.flatMap Option.toList := by
        intro slots
        simp [FieldValue.childIds, List.filterMap_eq_flatMap_toList]
      rw [slotsOf]
      refine .map (.mapM (clones_slot cloneNodes)) (fun _ => slotsOf _)
        fun copies _ sameLength => ?_
      refine ⟨fun type => by cases type <;> rfl, ?_⟩
      rw [slotsOf, slotsOf]
      exact sameLength
  | _ => exact .pure rfl ⟨fun _ => rfl, rfl⟩

end CloneDownTo

end Tree

namespace Node

section WithCopies

variable {node : Node} {copies : List FieldValue}
  (sameShape : List.Forall₂ FieldValue.SameShape node.values copies)

include sameShape

theorem childIds_withValues :
    (node.withValues copies).childIds = copies.flatMap FieldValue.childIds := by
  rw [childIds, values_withValues (.of_sameShape node.values_typed sameShape)]

theorem nodeClass_withValues : (node.withValues copies).nodeClass = node.nodeClass := by
  rw [nodeClass, nodeClass, kind_withValues (.of_sameShape node.values_typed sameShape)]

theorem placements_withValues :
    (node.withValues copies).placements = pair node.fields copies := by
  have typed := Typed.of_sameShape node.values_typed sameShape
  rw [placements, fields, kind_withValues typed, values_withValues typed]
  rfl

end WithCopies

end Node

namespace Tree

/-- Copies of the children of a node fit the fields of its copy. -/
theorem fits_withValues {before after : Tree} {id : NodeId} {node : Node}
    {copies : List FieldValue} (fitting : before.Fitting)
    (atId : before.node? id = some node)
    (sameShape : List.Forall₂ FieldValue.SameShape node.values copies)
    (sameClass : List.Forall₂ (SameClass before after) node.childIds
      (copies.flatMap FieldValue.childIds)) (field : FieldDescriptor) (copy : NodeId)
    (placed : (field, copy) ∈ (node.withValues copies).placements) :
    ∃ found, after.node? copy = some found ∧ field.Fits found.nodeClass := by
  rw [← Node.childIds_withValues sameShape, ← Node.map_snd_placements,
    ← Node.map_snd_placements, Node.placements_withValues sameShape] at sameClass
  rw [Node.placements_withValues sameShape] at placed
  obtain ⟨original, placedBefore, originalNode, copied, atOriginal, atCopy, class_eq⟩ :=
    Node.exists_counterpart sameShape sameClass placed
  obtain ⟨found, atFound, fits⟩ := fitting id node field original atId placedBefore
  rw [atOriginal] at atFound
  cases atFound
  exact ⟨copied, atCopy, class_eq ▸ fits⟩

/-- The copy of a node over copies of its children may be added. -/
theorem attachable_withValues {before after : Tree} {id : NodeId} {node : Node}
    {copies : List FieldValue} (sound : before.Sound)
    (atId : before.node? id = some node)
    (sameShape : List.Forall₂ FieldValue.SameShape node.values copies)
    (made : Copies before after node.childIds (copies.flatMap FieldValue.childIds)) :
    after.Attachable (node.withValues copies) := by
  refine ⟨fits_withValues sound.fitting atId sameShape made.sameClass, ?_, ?_⟩
  · rw [Node.childIds_withValues sameShape]
    exact made.loose
  · rw [Node.childIds_withValues sameShape]
    exact made.nodup

/-- Copying a node down to a depth. -/
theorem clones_cloneDownTo (depth : Nat) (id : NodeId) :
    Clones (cloneDownTo depth id) [id] (fun copy => [copy]) fun _ => True := by
  induction depth generalizing id with
  | zero =>
      intro tree sound _
      exact ⟨.refl sound, fun result impossible => by cases impossible⟩
  | succ depth ih =>
      intro tree sound known
      obtain ⟨node, atId⟩ := exists_node?_of_has (known id (List.mem_singleton.2 rfl))
      have run : (cloneDownTo (depth + 1) id).run.run tree =
          match (node.values.mapM (cloneValue (cloneDownTo depth))).run.run tree with
          | (some copies, after) =>
              (some after.nextId, after.attach (node.withValues copies))
          | (none, after) => (none, after) := by
        have read : (get : Copying Tree).run.run tree = (some tree, tree) := rfl
        rw [cloneDownTo, Clones.run_bind, read]
        simp only [atId, Clones.run_bind]
        rcases (node.values.mapM (cloneValue (cloneDownTo depth))).run.run tree with
          ⟨_ | copies, after⟩ <;> rfl
      rw [run]
      have childrenKnown : ∀ original ∈ node.values.flatMap FieldValue.childIds,
          tree.Has original := fun original held => sound.has_of_mem atId held
      obtain ⟨grown, results⟩ :=
        Clones.mapM (fun value => clones_cloneValue ih value) tree sound childrenKnown
      rcases outcome : (node.values.mapM (cloneValue (cloneDownTo depth))).run.run tree with
        ⟨_ | copies, after⟩
      · rw [outcome] at grown
        exact ⟨grown, fun result impossible => by cases impossible⟩
      · rw [outcome] at grown results
        obtain ⟨sameShape, made⟩ := results copies rfl
        have attachable := attachable_withValues sound atId sameShape made
        refine ⟨grown.attach attachable ?_, fun result same => ?_⟩
        · rw [Node.childIds_withValues sameShape]
          exact made.fresh
        · cases same
          exact ⟨trivial, .single grown attachable atId
            (Node.nodeClass_withValues sameShape)⟩

/-- There is no copy of what does not exist. -/
theorem clone_eq_of_node?_eq_none {tree : Tree} {id : NodeId} (missing : tree.node? id = none) :
    tree.clone id = (none, tree) := by
  have read : (get : Copying Tree).run.run tree = (some tree, tree) := rfl
  rw [clone, cloneDownTo, Clones.run_bind, read]
  simp only [missing]
  rfl

/-- Copying adds to a sound tree, also when it fails half-way. -/
theorem Sound.grown_clone {tree : Tree} (sound : tree.Sound) (id : NodeId) :
    Grown tree (tree.clone id).2 := by
  cases found : tree.node? id with
  | none =>
      rw [clone_eq_of_node?_eq_none found]
      exact .refl sound
  | some node =>
      have known : ∀ original ∈ [id], tree.Has original := by
        intro original member
        rw [List.mem_singleton.1 member]
        exact has_of_node? found
      exact (clones_cloneDownTo (tree.size + 1) id tree sound known).1

/-- A copy of any node, or of none, leaves the tree sound. -/
theorem Sound.clone {tree : Tree} (sound : tree.Sound) (id : NodeId) :
    (tree.clone id).2.Sound :=
  (sound.grown_clone id).sound

/-- The copy of a node hangs nowhere. -/
theorem Sound.copies_clone {tree after : Tree} {id copy : NodeId} (sound : tree.Sound)
    (present : tree.Has id) (made : tree.clone id = (some copy, after)) :
    Copies tree after [id] [copy] := by
  have known : ∀ original ∈ [id], tree.Has original := by
    intro original member
    rw [List.mem_singleton.1 member]
    exact present
  have results := (clones_cloneDownTo (tree.size + 1) id tree sound known).2 copy
  rw [← Tree.clone, made] at results
  exact (results rfl).2

end Tree

end SelectTree
