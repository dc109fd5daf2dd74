/-
Module: SelectTree.Proofs.Tree.Draft
Purpose: runs of edits, checkpoints and rollbacks: when children stay linked, and what is restored.
Main exports: Tree.Draft, Draft.Step, Draft.run, Draft.CleanRun, Draft.linked_iff_cleanRun,
  Draft.Restores, Draft.rollback_run

A rollback forgets recorded parents that are dropped, but not children that are dropped.  So it
leaves a tree in order exactly if no older node holds a newer one.  Additions and copies never
bring that about, since every node they add stands behind its children.
-/
import SelectTree.Proofs.Tree.Copied
import SelectTree.Proofs.Tree.Edited
import SelectTree.Proofs.Tree.Rollback

namespace SelectTree

namespace Tree

/-- A tree and the checkpoints that were taken on the way, the first one first. -/
structure Draft where
  tree : Tree
  marks : List Checkpoint

namespace Draft

/-- An edit, a checkpoint, or a rollback to a checkpoint that was taken before. -/
inductive Step where
  | edit (edit : Edit)
  | mark
  | takeBack (index : Nat)

/-- The draft after a step.  A rollback keeps all checkpoints, so it may be repeated, and later
ones may be used although what they mark is gone. -/
def apply (draft : Draft) : Step → Draft
  | .edit edit => { draft with tree := edit.apply draft.tree }
  | .mark => { draft with marks := draft.marks ++ [draft.tree.checkpoint] }
  | .takeBack index =>
      match draft.marks[index]? with
      | some mark => { draft with tree := draft.tree.rollback mark }
      | none => draft

/-- The draft after several steps. -/
def run (draft : Draft) (steps : List Step) : Draft :=
  steps.foldl apply draft

/-! ### Children stay linked -/

/-- A rollback is clean if no node from before the checkpoint holds one from behind it. -/
def Clean (draft : Draft) : Step → Prop
  | .takeBack index => ∀ mark, draft.marks[index]? = some mark → draft.tree.Layered mark
  | _ => True

/-- Every rollback of a run is clean when it is made. -/
def CleanRun : Draft → List Step → Prop
  | _, [] => True
  | draft, step :: steps => draft.Clean step ∧ CleanRun (draft.apply step) steps

section Sound

variable {draft : Draft} (sound : draft.tree.Sound)

include sound

/-- A clean step keeps the tree sound. -/
theorem sound_apply {step : Step} (clean : draft.Clean step) : (draft.apply step).tree.Sound := by
  cases step with
  | edit edit => exact sound.apply edit
  | mark => exact sound
  | takeBack index =>
      rw [apply]
      split
      · next mark taken => exact sound.rollback (clean mark taken)
      · exact sound

/-- Of a sound tree, a step leaves all children linked exactly if it is clean. -/
theorem linked_apply_iff (step : Step) : (draft.apply step).tree.Linked ↔ draft.Clean step := by
  constructor
  · intro linked
    cases step with
    | takeBack index =>
        intro mark taken
        rw [apply, taken] at linked
        exact sound.linked_rollback_iff.1 linked
    | _ => trivial
  · intro clean
    exact (sound_apply sound clean).linked

/-- By induction on the steps, as long as they are clean. -/
theorem linked_run_iff (steps : List Step) :
    (∀ front, front <+: steps → (draft.run front).tree.Linked) ↔ draft.CleanRun steps := by
  induction steps generalizing draft with
  | nil =>
      constructor
      · intro _
        trivial
      · intro _ front isFront
        rw [List.prefix_nil.1 isFront]
        exact sound.linked
  | cons step steps ih =>
      constructor
      · intro linked
        have clean := (linked_apply_iff sound step).1 (linked [step] ⟨steps, rfl⟩)
        constructor
        · exact clean
        · apply (ih (sound_apply sound clean)).1
          intro front isFront
          exact linked (step :: front) ((List.prefix_cons_inj step).2 isFront)
      · rintro ⟨clean, cleanRun⟩ front isFront
        cases front with
        | nil => exact sound.linked
        | cons first front =>
            obtain ⟨rfl, isFrontBehind⟩ := List.cons_prefix_cons.1 isFront
            exact (ih (sound_apply sound clean)).2 cleanRun front isFrontBehind

end Sound

/-- However a tree that is new or parsed was edited, and whatever edits, checkpoints and rollbacks
follow: after each step every child of every node exists, fits and records that node exactly if
every rollback was clean when it was made. -/
theorem linked_iff_cleanRun {tree : Tree} (edited : tree.Edited) (steps : List Step) :
    (∀ front, front <+: steps → ((⟨tree, []⟩ : Draft).run front).tree.Linked) ↔
      CleanRun ⟨tree, []⟩ steps := by
  have sound : (⟨tree, []⟩ : Draft).tree.Sound := sound_of_edited edited
  exact linked_run_iff sound steps

/-- The literal of a negation is exchanged for a newer node, which is then dropped. -/
def danglingRun : List Step :=
  [.edit (.add (.column .null)), .edit (.add (.column (.negated (some ⟨1⟩)))), .mark,
    .edit (.add (.column .null)), .edit (.replaceChildAndReparent ⟨2⟩ ⟨1⟩ ⟨3⟩), .takeBack 0]

/-- The negation still holds the number of the dropped node, so the rollback was not clean. -/
theorem not_cleanRun_danglingRun :
    Tree.new.Edited ∧ ¬ CleanRun ⟨.new, []⟩ danglingRun := by
  constructor
  · exact .new
  · intro clean
    have linked := (linked_iff_cleanRun .new danglingRun).2 clean danglingRun (List.prefix_refl _)
    have held : ((⟨.new, []⟩ : Draft).run danglingRun).tree.node? ⟨2⟩ =
        some (.column (.negated (some ⟨3⟩))) := by decide +kernel
    have dropped : ((⟨.new, []⟩ : Draft).run danglingRun).tree.node? ⟨3⟩ = none := by
      decide +kernel
    obtain ⟨field, placed⟩ := Node.exists_placement
      (by decide : (⟨3⟩ : NodeId) ∈ (Node.column (.negated (some ⟨3⟩))).childIds)
    obtain ⟨⟨_, found, _⟩, _⟩ := linked _ _ field _ held placed
    rw [dropped] at found
    cases found

/-! ### What a rollback restores -/

/-- The earlier tree comes out if everything behind its nodes is dropped, and newer nodes stand
behind their children. -/
structure Restores (before now : Tree) : Prop extends Continues before now where
  /-- Only newer nodes have adopted older ones. -/
  parent? : ∀ id, before.Has id →
    (now.parent? id).filter (·.index < before.size) = before.parent? id

namespace Restores

theorem refl {tree : Tree} (sound : tree.Sound) : Restores tree tree where
  toContinues := .refl tree
  parent? := fun id _ => sound.closed.filter_parent? id

variable {before now : Tree} (restores : Restores before now)

include restores

/-- Newer nodes stand behind their children, so a rollback to where the tree was, or later, drops no
child of an older node. -/
theorem layered (sound : before.Sound) {mark : Checkpoint} (le : before.size ≤ mark.size) :
    now.Layered mark := by
  intro holder child held below
  by_cases present : before.Has holder
  · obtain ⟨node, found, inside⟩ := held
    rw [restores.node? holder present] at found
    exact Nat.lt_of_lt_of_le (sound.has_of_mem found inside) le
  · exact Nat.lt_trans (restores.behind holder child held (Nat.not_lt.1 present)) below

/-- An attached node is newer than its children and adopts them as the only change to older nodes.
-/
theorem attach {node : Node} (attachable : now.Attachable node) :
    Restores before (now.attach node) where
  toContinues := restores.toContinues.attach fun _ held => attachable.has held
  parent? := by
    intro id present
    have earlier := restores.parent? id present
    rw [attachable.parent?_attach]
    split
    · next adopted =>
        rw [attachable.loose id adopted] at earlier
        have newer : ¬ now.nextId.index < before.size := Nat.not_lt.2 restores.size_le
        rw [← earlier, Option.filter_some, if_neg (by simpa using newer), Option.filter_none]
    · exact earlier

theorem clone (sound : now.Sound) (id : NodeId) : Restores before (now.clone id).2 := by
  by_cases present : now.Has id
  · obtain ⟨copy, after, made, copied⟩ := sound.exists_copied present
    have grown := sound.grown_clone id
    rw [made] at grown ⊢
    exact {
      toContinues := restores.toContinues.trans copied.continues.1
      parent? := fun old known => by
        rw [grown.parent? old (restores.has known), restores.parent? old known] }
  · rw [clone_eq_of_node?_eq_none (node?_eq_none_iff.2 (Nat.not_lt.1 present))]
    exact restores

/-- A rollback that stays behind the earlier tree keeps all of it. -/
theorem rollback {mark : Checkpoint} (le : before.size ≤ mark.size) :
    Restores before (now.rollback mark) := by
  rcases rollback_eq_self_or now mark with same | ⟨later, nonempty⟩
  · rw [same]
    exact restores
  · have kept : ∀ id, before.Has id → id.index < mark.size :=
      fun id present => Nat.lt_of_lt_of_le present le
    constructor
    · constructor
      · rw [size_rollback later nonempty]
        exact le
      · intro id present
        rw [node?_rollback later nonempty, if_pos (kept id present), restores.node? id present]
      · rintro holder child ⟨node, found, inside⟩ new
        obtain ⟨_, foundBefore⟩ := (node?_rollback_eq_some_iff later nonempty).1 found
        exact restores.behind holder child ⟨node, foundBefore, inside⟩ new
    · intro id present
      rw [parent?_rollback later nonempty, if_pos (kept id present), Option.filter_filter,
        ← restores.parent? id present]
      congr 1
      funext parent
      by_cases old : parent.index < before.size
      · have below := Nat.lt_of_lt_of_le old le
        simp [old, below]
      · simp [old]

end Restores

/-- Checkpoints, rollbacks, additions and copies, but no exchange of children. -/
def Step.Adds : Step → Prop
  | .edit (.replaceChildAndReparent ..) => False
  | _ => True

/-- A draft that has come about from a tree by additions, and by rollbacks to checkpoints that
were not taken before. -/
structure Tracks (before : Tree) (draft : Draft) : Prop where
  sound : draft.tree.Sound
  restores : Restores before draft.tree
  marks : ∀ mark ∈ draft.marks, before.size ≤ mark.size

namespace Tracks

variable {before : Tree} {draft : Draft}

theorem start {tree : Tree} (sound : tree.Sound) : Tracks tree ⟨tree, [tree.checkpoint]⟩ where
  sound := sound
  restores := .refl sound
  marks := by
    intro mark member
    rw [List.mem_singleton.1 member]
    exact le_rfl

/-- Rollbacks to such checkpoints are clean. -/
theorem clean (soundBefore : before.Sound) (tracks : Tracks before draft) (step : Step) :
    draft.Clean step := by
  cases step with
  | takeBack index =>
      intro mark taken
      exact tracks.restores.layered soundBefore (tracks.marks mark (List.mem_of_getElem? taken))
  | _ => trivial

theorem apply (soundBefore : before.Sound) (tracks : Tracks before draft) {step : Step}
    (adds : step.Adds) : Tracks before (draft.apply step) where
  sound := sound_apply tracks.sound (tracks.clean soundBefore step)
  restores := by
    cases step with
    | edit edit =>
        cases edit with
        | add node =>
            simp only [Draft.apply, Edit.apply]
            split
            · next id grown added =>
                obtain ⟨attachable, -, rfl⟩ := add_eq_ok_iff.1 added
                exact tracks.restores.attach attachable
            · exact tracks.restores
        | clone id => exact tracks.restores.clone tracks.sound id
        | replaceChildAndReparent parent old new => cases adds
    | mark => exact tracks.restores
    | takeBack index =>
        rw [Draft.apply]
        split
        · next mark taken =>
            exact tracks.restores.rollback (tracks.marks mark (List.mem_of_getElem? taken))
        · exact tracks.restores
  marks := by
    intro mark member
    cases step with
    | edit edit => exact tracks.marks mark member
    | mark =>
        rcases List.mem_append.1 member with earlier | new
        · exact tracks.marks mark earlier
        · rw [List.mem_singleton.1 new]
          exact tracks.restores.size_le
    | takeBack index =>
        rw [Draft.apply] at member
        split at member
        · exact tracks.marks mark member
        · exact tracks.marks mark member

/-- By induction on the steps: additions, copies, checkpoints and rollbacks all keep what is to be
restored. -/
theorem run (soundBefore : before.Sound) (tracks : Tracks before draft) (steps : List Step)
    (adds : ∀ step ∈ steps, step.Adds) : Tracks before (draft.run steps) := by
  induction steps generalizing draft with
  | nil => exact tracks
  | cons step steps ih =>
      have tracksOn := tracks.apply soundBefore (adds step List.mem_cons_self)
      exact ih tracksOn fun later member => adds later (List.mem_cons_of_mem _ member)

end Tracks

/-- However a tree that is new or parsed was edited: a rollback to a checkpoint gives back exactly
the tree of which it was taken, whatever was added and copied in between, whatever of that was
refused, and whatever other checkpoints were taken and rolled back to. -/
theorem rollback_run {tree : Tree} (edited : tree.Edited) (steps : List Step)
    (adds : ∀ step ∈ steps, step.Adds) :
    ((⟨tree, [tree.checkpoint]⟩ : Draft).run steps).tree.rollback tree.checkpoint = tree := by
  have sound := sound_of_edited edited
  have tracks := (Tracks.start sound).run sound steps adds
  exact rollback_checkpoint tracks.sound.closed sound.size_pos tracks.restores.size_le
    tracks.restores.node? tracks.restores.parent?

/-- The new tree with a literal that hangs nowhere. -/
def looseLiteral : Tree :=
  Edit.apply .new (.add (.column .null))

/-- The literal is adopted, the negation over it is copied, adopting the literal once more is
refused, and what was added is dropped, so that its numbers are used again. -/
def adoptingRun : List Step :=
  [.edit (.add (.column (.negated (some ⟨1⟩)))), .mark, .edit (.clone ⟨2⟩),
    .edit (.add (.column (.negated (some ⟨1⟩)))), .takeBack 1, .edit (.add (.column .null)),
    .takeBack 1, .edit (.clone .root)]

theorem rollback_adoptingRun :
    looseLiteral.Edited ∧ (∀ step ∈ adoptingRun, step.Adds) ∧
      ((⟨looseLiteral, [looseLiteral.checkpoint]⟩ : Draft).run adoptingRun).tree.rollback
        looseLiteral.checkpoint = looseLiteral := by
  have edited : looseLiteral.Edited := .apply _ .new
  have adds : ∀ step ∈ adoptingRun, step.Adds := by simp [adoptingRun, Step.Adds]
  exact ⟨edited, adds, rollback_run edited adoptingRun adds⟩

end Draft

end Tree

end SelectTree
