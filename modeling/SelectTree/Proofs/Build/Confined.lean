/-
Module: SelectTree.Proofs.Build.Confined
Purpose: how many levels of brackets and of prefix operators can be open when a rule is applied.
Main exports: Build.guardedRules, Build.agree_guardedRules, Build.levels_confined

A bracket is opened while fewer brackets are open than the limit says, and a prefix operator while
fewer of both are.  So there are never more brackets than the limit says, and always fewer prefix
operators; but of both together there can be nearly twice as many.
-/
import SelectTree.Proofs.Build.Progress

namespace SelectTree

/-- The builder, which does something else outside of the region. -/
def Builder.guarded {α : Type} (region : Nat → Nat → Prop)
    [∀ room nesting, Decidable (region room nesting)] (escape body : Builder α) : Builder α :=
  .of fun limits workspace =>
    if region limits.room workspace.nesting then body.on limits workspace
    else escape.on limits workspace

namespace Build

variable (region : Nat → Nat → Prop) [∀ room nesting, Decidable (region room nesting)]
  (escape : Builder NodeId)

/-- The rules, all of which do something else outside of the region. -/
def Rules.guarded (rules : Rules) : Rules :=
  { operand := .guarded region escape rules.operand
    column := .guarded region escape rules.column
    term := .guarded region escape rules.term
    condition := .guarded region escape rules.condition
    relation := .guarded region escape rules.relation
    statement := .guarded region escape rules.statement }

theorem Rules.apply_guarded (rules : Rules) (inner : Grammar.Inner) :
    (rules.guarded region escape).apply inner = .guarded region escape (rules.apply inner) := by
  cases inner <;> rfl

/-- The rules to a depth of so many levels of each other, on each level with something else outside
of the region. -/
def guardedRules : Nat → Rules
  | 0 => .exhausted
  | depth + 1 => (guardedRules depth).around.guarded region escape

variable {region escape}

/-- If rules never leave the region, they never do what they do outside of it. -/
theorem agree_guardedRules (descends : Descends region) (depth bound : Nat) :
    (rules depth).Agree (guardedRules region escape depth) region bound := by
  induction depth generalizing bound with
  | zero => exact fun _ _ _ _ _ _ => rfl
  | succ depth ih =>
      intro inner limits workspace hookless inside _
      have same := (assembled_around inner).same (rules_orderly depth) descends
        (ih workspace.words.length) limits workspace hookless inside (Nat.le_refl _)
      rw [guardedRules, Rules.apply_guarded]
      refine Eq.trans same ?_
      exact (if_pos inside).symm

/-- No more brackets than the limit says are open, and fewer prefix operators. -/
def Within (limit room nesting : Nat) : Prop :=
  room ≤ limit ∧ (nesting = 0 ∨ nesting < limit)

instance (limit room nesting : Nat) : Decidable (Within limit room nesting) :=
  inferInstanceAs (Decidable (_ ∧ _))

theorem descends_within (limit : Nat) : Descends (Within limit) where
  bracket := fun ⟨le, fewer⟩ => ⟨Nat.le_of_succ_le le, fewer⟩
  level := fun ⟨le, _⟩ fewer => ⟨le, .inr (Nat.lt_of_lt_of_le fewer le)⟩

/-- Whatever a rule would do with more brackets or prefix operators open than there may be, it makes
no difference: no rule is ever applied there. -/
theorem levels_confined (procedure : Procedure) (depth limit : Nat) (escape : Builder NodeId)
    (words : Words) (tree : Tree) :
    (procedure.builder (guardedRules (Within limit) escape depth)).on { room := limit }
        { words, nesting := 0, tree } =
      (procedure.builder (rules depth)).on { room := limit } { words, nesting := 0, tree } := by
  have front : Lead.behind.Holds (words.length + 1) words := Nat.lt_succ_self _
  have agree : (rules depth).Agree (guardedRules (Within limit) escape depth) (Within limit) _ :=
    agree_guardedRules (descends_within limit) depth (words.length + 1)
  exact (procedure.assembled.same (rules_orderly depth) (descends_within limit) agree
    { room := limit } { words, nesting := 0, tree } rfl ⟨Nat.le_refl _, .inl rfl⟩ front).symm

end Build

end SelectTree
