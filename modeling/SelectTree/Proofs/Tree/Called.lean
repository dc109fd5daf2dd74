/-
Module: SelectTree.Proofs.Tree.Called
Purpose: whatever calls made of a tree, its children are of the classes that their fields demand.
Main exports: Tree.Call, Tree.Call.apply, Tree.Called, Tree.Fitting.apply,
  Tree.Fitting.validate_error, Tree.children_fit

Some calls leave recorded parents behind that are wrong, nodes in several places, and cycles.  No
call leaves a child behind that does not exist or is of a class that its field does not admit.
-/
import SelectTree.Proofs.Tree.Copied
import SelectTree.Proofs.Tree.Edited
import SelectTree.Tree.Validate

namespace SelectTree

namespace Tree

/-- A call that changes a tree, among them those that leave recorded parents as they are. -/
inductive Call where
  | add (node : Node)
  | clone (id : NodeId)
  | replaceChild (parent old new : NodeId)
  | replaceChildAndReparent (parent old new : NodeId)
  | setParent (id : NodeId) (parent : Option NodeId)

/-- The tree behind a call.  A call that is refused changes nothing; neither does the copy of a
node below which there is a cycle, which never comes about. -/
def Call.apply (tree : Tree) : Call → Tree
  | .add node =>
      match tree.add node with
      | .ok (_, grown) => grown
      | .error _ => tree
  | .clone id =>
      match tree.clone id with
      | (some _, grown) => grown
      | (none, _) => tree
  | .replaceChild parent old new =>
      match tree.replaceChild parent old new with
      | .ok (some replaced) => replaced
      | _ => tree
  | .replaceChildAndReparent parent old new =>
      match tree.replaceChildAndReparent parent old new with
      | .ok replaced => replaced
      | .error _ => tree
  | .setParent id parent =>
      match tree.setParent id parent with
      | .ok changed => changed
      | .error _ => tree

/-- Trees that are new or parsed, and what calls make of them. -/
inductive Called : Tree → Prop where
  | new : Called .new
  | parsed {entry : EntryPoint} {source : String} {options : Options} {hooks : Hooks}
      {tree : Tree} : parse entry source options hooks = .ok tree → Called tree
  | apply {tree : Tree} (call : Call) : Called tree → Called (call.apply tree)

theorem Called.foldl {tree : Tree} (called : tree.Called) (calls : List Call) :
    (calls.foldl Call.apply tree).Called := by
  induction calls generalizing tree with
  | nil => exact called
  | cons call calls ih => exact ih (called.apply call)

/-! ### No call puts a child where it does not fit -/

namespace Fitting

variable {tree : Tree} (fitting : tree.Fitting)

include fitting

theorem recordParent (parent : Option NodeId) (id : NodeId) :
    (tree.recordParent parent id).Fitting :=
  fitting.of_node?_eq fun other => node?_recordParent tree parent id other

theorem replaceChild {replaced : Tree} {parent old new : NodeId}
    (outcome : tree.replaceChild parent old new = .ok (some replaced)) : replaced.Fitting := by
  obtain ⟨node, newNode, index, atParent, atNew, place, admits, rfl⟩ := replaceChild_eq_some outcome
  obtain ⟨field, before, after, atIndex, placements, placementsChanged⟩ :=
    node.placements_replaceIn new place
  have oldPlaced : (field, old) ∈ node.placements := by simp [placements]
  obtain ⟨demanded, holdsChildren⟩ := Node.exists_accepts?_of_placement oldPlaced
  have fits := (FieldDescriptor.Fits.checkClass_iff holdsChildren).1 (admits field atIndex)
  apply fitting.exchange atParent atNew fits (Node.kind_replaceIn new) placements
    placementsChanged
  intro id
  rw [node?_setNode _ _ _ _ (has_of_node? atParent)]

/-- Each child of an added node fits its field, each child of a copy fits as the original does,
and an exchange is checked against the field; recorded parents do not matter. -/
theorem apply (call : Call) : (call.apply tree).Fitting := by
  cases call with
  | add node =>
      rw [Call.apply]
      split
      · next id grown added =>
          obtain ⟨attachable, -, rfl⟩ := add_eq_ok_iff.1 added
          exact fitting.attach attachable.fits
      · exact fitting
  | clone id =>
      rw [Call.apply]
      split
      · next copy grown made => exact (copied_of_cloneDownTo _ _ _ _ _ made).fitting fitting
      · exact fitting
  | replaceChild parent old new =>
      rw [Call.apply]
      split
      · next replaced outcome => exact fitting.replaceChild outcome
      · exact fitting
  | replaceChildAndReparent parent old new =>
      rw [Call.apply]
      split
      · next result outcome =>
          obtain ⟨-, -, replaced, replaceOutcome, rfl⟩ := replaceChildAndReparent_eq_ok outcome
          exact ((fitting.replaceChild replaceOutcome).recordParent _ _).recordParent _ _
      · exact fitting
  | setParent id parent =>
      rw [Call.apply]
      split
      · next changed outcome =>
          obtain ⟨-, rfl⟩ := setParent_eq_ok outcome
          exact fitting.recordParent _ _
      · exact fitting

end Fitting

theorem fitting_of_called {tree : Tree} (called : tree.Called) : tree.Fitting := by
  induction called with
  | new => exact Sound.new.fitting
  | parsed parsed => exact (sound_of_edited (.parsed parsed)).fitting
  | apply call _ ih => exact ih.apply call

/-! ### What is left to be found wrong -/

/-- One check of several fails if their sequence does. -/
theorem exists_of_forM_eq_error {ε α : Type} {check : α → Except ε Unit} {items : List α}
    {error : ε} (failed : items.forM check = .error error) :
    ∃ item ∈ items, check item = .error error := by
  induction items with
  | nil => cases failed
  | cons item items ih =>
      change (check item >>= fun _ => items.forM check) = .error error at failed
      cases outcome : check item with
      | error _ =>
          rw [outcome] at failed
          cases failed
          exact ⟨item, List.mem_cons_self, outcome⟩
      | ok _ =>
          rw [outcome] at failed
          obtain ⟨other, member, isWrong⟩ := ih failed
          exact ⟨other, List.mem_cons_of_mem _ member, isWrong⟩

/-- Where children exist and fit, only their recorded parents can be wrong. -/
theorem checkNode_error {tree : Tree} {id : NodeId} {error : TreeError}
    {placements : List (FieldDescriptor × NodeId)}
    (fits : ∀ field child, (field, child) ∈ placements →
      ∃ found, tree.node? child = some found ∧ field.Fits found.nodeClass)
    (failed : tree.checkNode id placements = .error error) :
    ∃ child, error = .childNotFound id child := by
  induction placements with
  | nil => cases failed
  | cons placement placements ih =>
      obtain ⟨field, child⟩ := placement
      obtain ⟨found, atChild, fit⟩ := fits field child List.mem_cons_self
      have ⟨_, holdsChildren, _⟩ := fit
      have admitted := (FieldDescriptor.Fits.checkClass_iff holdsChildren).2 fit
      rw [checkNode, require_eq_ok_iff.2 atChild] at failed
      by_cases recorded : tree.parent? child = some id
      · apply ih fun field child placed => fits field child (List.mem_cons_of_mem _ placed)
        simpa [bind, Except.bind, recorded, admitted] using failed
      · refine ⟨child, ?_⟩
        simpa [bind, Except.bind, recorded, throw, throwThe, MonadExceptOf.throw, eq_comm]
          using failed

namespace Fitting

variable {tree : Tree} (fitting : tree.Fitting)

include fitting

theorem validateDownTo_error {depth : Nat} {id : NodeId} {error : TreeError}
    (present : tree.Has id) (failed : tree.validateDownTo depth id = .error error) :
    ∃ parent child, error = .childNotFound parent child := by
  induction depth generalizing id with
  | zero => cases failed
  | succ depth ih =>
      obtain ⟨node, found⟩ := exists_node?_of_has present
      rw [validateDownTo, require_eq_ok_iff.2 found] at failed
      change (tree.checkNode id node.placements >>= fun _ =>
        node.children.forM (tree.validateDownTo depth)) = .error error at failed
      cases checked : tree.checkNode id node.placements with
      | error _ =>
          rw [checked] at failed
          cases failed
          have fits := fun field child => fitting id node field child found
          obtain ⟨child, rfl⟩ := checkNode_error fits checked
          exact ⟨id, child, rfl⟩
      | ok _ =>
          rw [checked] at failed
          obtain ⟨child, member, failedBelow⟩ := exists_of_forM_eq_error failed
          have held := node.children_perm.mem_iff.1 member
          exact ih (fitting.has_of_mem found held) failedBelow

/-- Nothing is found wrong below a node but recorded parents. -/
theorem validate_error {id : NodeId} {error : TreeError} (present : tree.Has id)
    (failed : tree.validate id = .error error) :
    ∃ parent child, error = .childNotFound parent child :=
  fitting.validateDownTo_error present failed

end Fitting

/-- Whatever calls were made on a tree that is new or parsed: each child of each node exists, is
of the class that its field demands and is no root.  So a validation of a node never finds an
unknown node or a wrong class. -/
theorem children_fit {tree : Tree} (called : tree.Called) :
    tree.Fitting ∧
      (∀ holder child, tree.Holds holder child →
        ∃ found, tree.node? child = some found ∧ found.nodeClass ≠ .root) ∧
      ∀ id, tree.Has id → ∀ error, tree.validate id = .error error →
        ∃ parent child, error = .childNotFound parent child := by
  have fitting := fitting_of_called called
  refine ⟨fitting, ?_, ?_⟩
  · rintro holder child ⟨node, found, held⟩
    exact fitting.exists_node?_of_mem found held
  · intro id present error failed
    exact fitting.validate_error present failed

/-- A bracket is put into itself, a literal into both places of a comparison and under a parent
that does not hold it, a condition is refused in a bracket, and all of that is copied. -/
def tanglingCalls : List Call :=
  [.replaceChild ⟨2⟩ ⟨1⟩ ⟨2⟩, .replaceChild ⟨4⟩ ⟨2⟩ ⟨1⟩, .replaceChild ⟨4⟩ ⟨3⟩ ⟨1⟩,
    .setParent ⟨1⟩ (some ⟨3⟩), .replaceChild ⟨2⟩ ⟨2⟩ ⟨4⟩, .clone ⟨4⟩]

theorem children_fit_tanglingCalls :
    (tanglingCalls.foldl Call.apply bracketComparison).Called ∧
      (tanglingCalls.foldl Call.apply bracketComparison).Fitting ∧
      (tanglingCalls.foldl Call.apply bracketComparison).validate ⟨4⟩ =
        .error (.childNotFound ⟨4⟩ ⟨1⟩) := by
  have called := Called.foldl (.parsed parse_bracketComparison) tanglingCalls
  exact ⟨called, (children_fit called).1, by decide +kernel⟩

end Tree

end SelectTree
