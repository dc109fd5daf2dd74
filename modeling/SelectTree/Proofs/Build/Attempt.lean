/-
Module: SelectTree.Proofs.Build.Attempt
Purpose: a reading that is given up leaves the workspace as it was.
Main exports: Build.Reached, Build.Reached.closed, Adds.attempt_eq, Build.attempt_restores
-/
import SelectTree.Proofs.Build.Routine

namespace SelectTree

/-- Giving up takes back exactly what was done: the nodes that are left adopted only each other,
so dropping them changes no node and no recorded parent that was there before. -/
theorem Adds.attempt_eq {β : Type} {builder : Builder β} (adds : Adds builder) {limits : Limits}
    {workspace behind : Workspace} (closed : workspace.tree.Closed)
    (givenUp : (Builder.attempt builder).on limits workspace = (.ok none, behind)) :
    behind = workspace := by
  rw [Builder.on_attempt] at givenUp
  obtain ⟨left, nodes, ran, contained⟩ := adds limits workspace closed
  rcases outcome : builder.on limits workspace with ⟨fault | value, after⟩
  · rw [outcome] at ran contained givenUp
    simp only at ran contained givenUp
    subst ran
    split at givenUp
    · cases givenUp
      rw [Tree.rollback_attachAll closed (contained fault rfl)]
    · cases givenUp
  · rw [outcome] at givenUp
    cases givenUp

namespace Build

/-- The workspaces that the rules, which no hook replaces, can lead to from a new tree.  A rule
may have been refused; between two rules the words and the level of nesting may be others; and
single nodes may be added, so that workspaces in the middle of a rule are among them. -/
inductive Reached : Workspace → Prop where
  | new (words : Words) (nesting : Nat) : Reached { words, nesting, tree := .new }
  | run {β : Type} {workspace : Workspace} (routine : Routine β) (depth room : Nat) :
      Reached workspace →
      Reached ((routine.builder (rules depth)).on { room } workspace).2
  | add {workspace : Workspace} (node : Node) :
      Reached workspace → Reached { workspace with tree := workspace.tree.attach node }
  | move {workspace : Workspace} (words : Words) (nesting : Nat) :
      Reached workspace → Reached { workspace with words, nesting }

theorem Reached.closed {workspace : Workspace} (reached : Reached workspace) :
    workspace.tree.Closed := by
  induction reached with
  | new => exact .new
  | run routine depth room _ ih =>
      obtain ⟨left, nodes, ran, -⟩ := routine.adds (rules_follow depth) { room } _ ih
      rw [ran]
      exact ih.attachAll nodes
  | add node _ ih => exact ih.attach node
  | move _ _ _ ih => exact ih

/-- Whatever rule is tried from whatever workspace the rules can lead to: if the reading is given
up, the workspace is the one from before, so whatever follows goes on as if nothing had been
tried. -/
theorem attempt_restores {β : Type} {workspace behind : Workspace} (reached : Reached workspace)
    (routine : Routine β) (depth room : Nat)
    (givenUp : (Builder.attempt (routine.builder (rules depth))).on { room } workspace =
      (.ok none, behind)) :
    behind = workspace ∧
      ∀ {γ : Type} (next : Option β → Builder γ),
        (Builder.attempt (routine.builder (rules depth)) >>= next).on { room } workspace =
          (next none).on { room } workspace := by
  have same : behind = workspace :=
    (routine.adds (rules_follow depth)).attempt_eq reached.closed givenUp
  refine ⟨same, fun next => ?_⟩
  rw [Builder.on_bind, givenUp, same]

/-- The words of `(1) > 1` behind a literal that hangs nowhere. -/
def bracketBehindLiteral : Workspace :=
  { words := (TokenStream.ofString "(1) > 1").words
    nesting := 1
    tree := Tree.new.attach (.column (.literal (.integer 1))) }

theorem attempt_restores_bracketBehindLiteral :
    Reached bracketBehindLiteral ∧
      (Builder.attempt (bracketedCondition (rules 8))).on { room := 128 } bracketBehindLiteral =
        (.ok none, bracketBehindLiteral) ∧
      ∀ {γ : Type} (next : Option NodeId → Builder γ),
        (Builder.attempt (bracketedCondition (rules 8)) >>= next).on { room := 128 }
          bracketBehindLiteral = (next none).on { room := 128 } bracketBehindLiteral := by
  have reached : Reached bracketBehindLiteral := .add _ (.new _ _)
  have givenUp :
      (Builder.attempt (bracketedCondition (rules 8))).on { room := 128 } bracketBehindLiteral =
        (.ok none, bracketBehindLiteral) := by
    decide +kernel
  exact ⟨reached, givenUp,
    (attempt_restores reached (.single .bracketedCondition) 8 128 givenUp).2⟩

end Build

end SelectTree
