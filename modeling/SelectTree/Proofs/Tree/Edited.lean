/-
Module: SelectTree.Proofs.Tree.Edited
Purpose: trees that are parsed or new stay sound however they are edited.
Main exports: Tree.Edit, Tree.Edit.apply, Tree.Edited, Tree.Sound.apply, Tree.sound_of_edited
-/
import SelectTree.Proofs.Parse.Proper
import SelectTree.Proofs.Tree.Replace

namespace SelectTree

namespace Tree

/-- A call that changes a tree and keeps its nodes and its recorded parents together. -/
inductive Edit where
  | add (node : Node)
  | clone (id : NodeId)
  | replaceChildAndReparent (parent old new : NodeId)

/-- The tree behind a call, also behind one that is refused. -/
def Edit.apply (tree : Tree) : Edit → Tree
  | .add node =>
      match tree.add node with
      | .ok (_, grown) => grown
      | .error _ => tree
  | .clone id => (tree.clone id).2
  | .replaceChildAndReparent parent old new =>
      match tree.replaceChildAndReparent parent old new with
      | .ok replaced => replaced
      | .error _ => tree

/-- Trees that are new or parsed, and what calls make of them. -/
inductive Edited : Tree → Prop where
  | new : Edited .new
  | parsed {entry : EntryPoint} {source : String} {options : Options} {hooks : Hooks}
      {tree : Tree} : parse entry source options hooks = .ok tree → Edited tree
  | apply {tree : Tree} (edit : Edit) : Edited tree → Edited (edit.apply tree)

/-- No call breaks a sound tree. -/
theorem Sound.apply {tree : Tree} (sound : tree.Sound) (edit : Edit) :
    (edit.apply tree).Sound := by
  cases edit with
  | add node =>
      rw [Edit.apply]
      split
      · next id grown added =>
          obtain ⟨attachable, -, rfl⟩ := add_eq_ok_iff.1 added
          exact sound.attach attachable
      · exact sound
  | clone id => exact sound.clone id
  | replaceChildAndReparent parent old new =>
      rw [Edit.apply]
      split
      · next replaced outcome =>
          obtain ⟨_, _, _, _, _, _, exchange⟩ := sound.exchange_of_replaceChildAndReparent outcome
          exact exchange.sound_result sound
      · exact sound

/-- Edits one after the other. -/
theorem Edited.foldl {tree : Tree} (edited : tree.Edited) (edits : List Edit) :
    (edits.foldl Edit.apply tree).Edited := by
  induction edits generalizing tree with
  | nil => exact edited
  | cons edit edits ih => exact ih (edited.apply edit)

/-- However a tree that is new or parsed is edited, its nodes and its recorded parents agree, no
node is in two places, every child fits its field, and there are no cycles. -/
theorem sound_of_edited {tree : Tree} (edited : tree.Edited) : tree.Sound := by
  induction edited with
  | new => exact .new
  | parsed parsed =>
      obtain ⟨phrase, rfl⟩ := exists_phrase_of_parse parsed
      exact phrase.proper_tree.toSound
  | apply edit _ ih => exact ih.apply edit

/-- A copy of the whole tree, which makes a second root; a literal exchanged for its copy; and an
exchange that is refused because it would make a cycle. -/
def exampleEdits : List Edit :=
  [.clone .root, .clone ⟨3⟩, .replaceChildAndReparent ⟨4⟩ ⟨3⟩ ⟨10⟩,
    .replaceChildAndReparent ⟨8⟩ ⟨7⟩ ⟨9⟩]

theorem sound_exampleEdits :
    (exampleEdits.foldl Edit.apply bracketComparison).Edited ∧
      (exampleEdits.foldl Edit.apply bracketComparison).Sound := by
  have edited := Edited.foldl (.parsed parse_bracketComparison) exampleEdits
  exact ⟨edited, sound_of_edited edited⟩

end Tree

end SelectTree
