/-
Module: SelectTree.Proofs.Parse.Proper
Purpose: a source that is parsed becomes one proper tree.
Main exports: Phrase.nodeClass_ne_root, Phrase.proper_tree, parse_proper
-/
import SelectTree.Proofs.Build.Rule
import SelectTree.Proofs.Tree.Proper

namespace SelectTree

theorem Phrase.nodeClass_ne_root {form : Form} (phrase : Phrase form) :
    phrase.nodeClass ≠ .root := by
  unfold Phrase.nodeClass
  split
  · exact nofun
  · cases form <;> exact nofun

namespace Tree

/-- A new tree with one stem behind its root is one tree once the root holds the stem. -/
theorem Bears.proper_setRootChild {grown : Tree} {id : NodeId} {nodeClass : NodeClass}
    (bears : Tree.new.Bears grown [(id, nodeClass)]) (notRoot : nodeClass ≠ .root) :
    (grown.setRootChild id).Proper := by
  have vacant : grown.node? .root = some (.root none) := bears.node? .root Nat.zero_lt_one
  obtain ⟨new, node, found, isClass⟩ := bears.isStem (id, nodeClass) (by simp)
  have loose : grown.parent? id = none :=
    (bears.loose_iff id new (has_of_node? found)).2 (by simp)
  have recorded (other : NodeId) := parent?_setRootChild vacant (has_of_node? found) other
  -- Number 0 is the only number that is older than the run.
  have newer {other : NodeId} (notTop : other ≠ .root) : Tree.new.size ≤ other.index :=
    Nat.one_le_iff_ne_zero.2 fun zero => notTop (NodeId.ext_index zero)
  have sound := Sound.setRootChild vacant bears.sound found (isClass ▸ notRoot) loose
  have rootChild : (grown.setRootChild id).node? .root = some (.root (some id)) := by
    simp [node?_setRootChild vacant]
  refine sound.proper rootChild ?hangs ?upward
  case hangs =>
    intro other present none
    by_contra notTop
    rw [recorded other] at none
    split at none
    · cases none
    · next notStem =>
        have before : grown.Has other := by
          simpa [Has, size_setRootChild vacant] using present
        have isStem := (bears.loose_iff other (newer notTop) before).1 none
        exact notStem (by simpa using isStem)
  case upward =>
    intro parent child isParent notTop
    have notRootChild : child ≠ .root := by
      rintro rfl
      rw [sound.root_parent] at isParent
      cases isParent
    rw [recorded child] at isParent
    split at isParent
    · cases isParent
      exact absurd rfl notTop
    · exact bears.upward child parent isParent (newer notRootChild)

end Tree

/-- The nodes of a phrase under a root are one tree. -/
theorem Phrase.proper_tree {form : Form} (phrase : Phrase form) : phrase.tree.Proper := by
  have sprout := phrase.yields.sprout Tree.new.size
  exact (sprout.bears .new).proper_setRootChild phrase.nodeClass_ne_root

/-- A source that is parsed becomes the tree of a phrase. -/
theorem exists_phrase_of_parse {entry : EntryPoint} {source : String} {options : Options}
    {hooks : Hooks} {tree : Tree} (parsed : parse entry source options hooks = .ok tree) :
    ∃ phrase : Phrase entry.rule.form, tree = phrase.tree := by
  obtain ⟨phrase, same, -⟩ := exists_accepted_phrase parsed
  exact ⟨phrase, same⟩

/-- Whatever a source is parsed as and whatever the options are: if there is a tree, it is one
tree.  Nothing is left of the readings that were given up on the way. -/
theorem parse_proper {entry : EntryPoint} {source : String} {options : Options} {tree : Tree}
    (parsed : parse entry source options {} = .ok tree) : tree.Proper := by
  obtain ⟨phrase, rfl⟩ := exists_phrase_of_parse parsed
  exact phrase.proper_tree

/-- The tree of `(1) = 1`.  The bracket is tried as a condition first, and no node is left of
that. -/
def bracketComparison : Tree :=
  { entries := #[
      { node := .root (some ⟨4⟩), parent := none },
      { node := .column (.literal (.integer 1)), parent := some ⟨2⟩ },
      { node := .column (.bracket (some ⟨1⟩)), parent := some ⟨4⟩ },
      { node := .column (.literal (.integer 1)), parent := some ⟨4⟩ },
      { node := .condition (.comparison (some ⟨2⟩) .eq (some ⟨3⟩)), parent := some ⟨0⟩ }] }

theorem parse_bracketComparison :
    parse .condition "(1) = 1" {} {} = .ok bracketComparison := by
  decide +kernel

theorem proper_bracketComparison :
    parse .condition "(1) = 1" {} {} = .ok bracketComparison ∧ bracketComparison.Proper :=
  ⟨parse_bracketComparison, parse_proper parse_bracketComparison⟩

end SelectTree
