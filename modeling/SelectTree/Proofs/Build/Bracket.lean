/-
Module: SelectTree.Proofs.Build.Bracket
Purpose: the two readings of a bracket, as a condition and as a column, exclude each other.
Main exports: Build.columnFirst, Build.ReadingsExclude, Build.readings_exclude
-/
import SelectTree.Proofs.Build.Rule
import SelectTree.Proofs.Grammar.Bracket
import SelectTree.Proofs.Tree.Made

namespace SelectTree

namespace Build

/-- The readings of a term that begins with a bracket in the other order: a predicate of a column
if there is one, else a condition. -/
def columnFirst (rules : Rules) : Builder NodeId :=
  .of fun limits workspace =>
    match (predicate rules).on limits workspace with
    | (.ok id, behind) => (.ok id, behind)
    | (.error _, _) => (bracketedCondition rules).on limits workspace

theorem on_columnFirst (rules : Rules) (limits : Limits) (workspace : Workspace) :
    (columnFirst rules).on limits workspace =
      match (predicate rules).on limits workspace with
      | (.ok id, behind) => (.ok id, behind)
      | (.error _, _) => (bracketedCondition rules).on limits workspace := rfl

section Readings

variable {limits : Limits} {workspace : Workspace}

/-- A bracket that is read as a column is given up as a condition. -/
theorem on_bracketedCondition_of_bracketOperand (depth : Nat) (noHooks : limits.hooks = {})
    (closed : workspace.tree.Closed) {id : NodeId}
    (read : ((bracketOperand (rules depth)).on limits workspace).1 = .ok id) :
    ∃ fault, ((bracketedCondition (rules depth)).on limits workspace).1 = .error fault ∧
      fault.kind = .notACondition := by
  have follow := rules_follow depth
  rcases answer : Grammar.bracketOperand (Grammar.rules depth)
    (limits.scope workspace.nesting) workspace.words with fault | result
  · obtain ⟨left, nodes, -, refused⟩ :=
      (builds_bracketOperand follow).on_of_error closed answer
    rw [refused] at read
    cases read
  · obtain ⟨fault, refused, kind⟩ :=
      Grammar.findsNoCondition_of_bracketOperand depth noHooks answer
    obtain ⟨left, nodes, -, ran⟩ :=
      (builds_bracketedCondition follow).on_of_error closed refused
    exact ⟨fault, by rw [ran], kind⟩

/-- A term that begins with a bracket is the same in both orders of its readings. -/
theorem on_term_eq_ok_iff (depth : Nat) (noHooks : limits.hooks = {})
    (closed : workspace.tree.Closed)
    (atBracket : workspace.words.head?.map Word.kind = some .leftParen) {id : NodeId}
    {behind : Workspace} :
    (term (rules depth)).on limits workspace = (.ok id, behind) ↔
      (columnFirst (rules depth)).on limits workspace = (.ok id, behind) := by
  obtain ⟨words, nesting, tree⟩ := workspace
  obtain ⟨opening, rest, rfl⟩ : ∃ opening rest, words = opening :: rest := by
    cases words with
    | nil => cases atBracket
    | cons opening rest => exact ⟨opening, rest, rfl⟩
  have opens : opening.kind = .leftParen := by simpa using atBracket
  have noTerm : (limits.scope nesting).hooks.term = none := congrArg Hooks.term noHooks
  have noOperand : (limits.scope nesting).hooks.operand = none := congrArg Hooks.operand noHooks
  have follow := rules_follow depth
  have read : Grammar.term (Grammar.rules depth) (limits.scope nesting) (opening :: rest) = _ :=
    Grammar.term_at_bracket (Grammar.rules depth) noTerm opens
  rw [on_columnFirst]
  rcases predicate : Grammar.predicate (Grammar.rules depth) (limits.scope nesting)
    (opening :: rest) with fault | ⟨found, left⟩
  · obtain ⟨_, _, -, refused⟩ := (builds_predicate follow).on_of_error closed predicate
    rw [refused]
    rcases condition : Grammar.bracketedCondition (Grammar.rules depth) (limits.scope nesting)
      (opening :: rest) with other | ⟨found, left⟩
    · obtain ⟨last, isLast⟩ : ∃ last, Grammar.term (Grammar.rules depth) (limits.scope nesting)
          (opening :: rest) = .error last := by
        simp only [read, condition, predicate]
        split <;> exact ⟨_, rfl⟩
      obtain ⟨_, _, -, refusedTerm⟩ := (builds_term follow).on_of_error closed isLast
      obtain ⟨_, _, -, refusedCondition⟩ :=
        (builds_bracketedCondition follow).on_of_error closed condition
      simp [refusedTerm, refusedCondition]
    · rw [condition] at read
      rw [(builds_term follow).on_of_ok closed read]
      simp only
      rw [(builds_bracketedCondition follow).on_of_ok closed condition]
  · obtain ⟨bracket, asColumn⟩ :=
      Grammar.exists_bracketOperand_of_predicate noOperand opens predicate
    obtain ⟨fault, refused, kind⟩ :=
      Grammar.findsNoCondition_of_bracketOperand depth noHooks asColumn
    rw [refused] at read
    simp only [kind, if_true, predicate] at read
    rw [(builds_term follow).on_of_ok closed read,
      (builds_predicate follow).on_of_ok closed predicate]

end Readings

/-- The two readings of a bracket exclude each other. -/
structure ReadingsExclude (rules : Rules) (limits : Limits) (workspace : Workspace) : Prop where
  /-- A bracket is not both a condition and a column. -/
  never_both : ¬ (((bracketedCondition rules).on limits workspace).1.isOk ∧
    ((bracketOperand rules).on limits workspace).1.isOk)
  /-- If something else is wrong with a condition than that it is none, then the bracket is no
  column either. -/
  fails_as_both : ∀ fault, ((bracketedCondition rules).on limits workspace).1 = .error fault →
    fault.kind ≠ .notACondition →
    ∃ other, ((bracketOperand rules).on limits workspace).1 = .error other
  /-- It does not matter which of the two readings of a term is tried first. -/
  same_in_both_orders : ∀ id behind,
    (term rules).on limits workspace = (.ok id, behind) ↔
      (columnFirst rules).on limits workspace = (.ok id, behind)

/-- Rules of any depth exclude the readings of a bracket by each other, whatever the words, the
room, the level of nesting and the tree are.  That the tree is made by the operations on trees is
there for its recorded parents, which must be nodes for a reading to be taken back exactly. -/
theorem readings_exclude (depth room : Nat) {workspace : Workspace} (made : workspace.tree.Made)
    (atBracket : workspace.words.head?.map Word.kind = some .leftParen) :
    ReadingsExclude (rules depth) { room } workspace := by
  have closed := made.closed
  have givenUp {id : NodeId}
      (read : ((bracketOperand (rules depth)).on { room } workspace).1 = .ok id) :
      ∃ fault, ((bracketedCondition (rules depth)).on { room } workspace).1 = .error fault ∧
        fault.kind = .notACondition :=
    on_bracketedCondition_of_bracketOperand depth rfl closed read
  constructor
  case never_both =>
    rintro ⟨condition, column⟩
    rcases answer : ((bracketOperand (rules depth)).on { room } workspace).1 with fault | id
    · rw [answer] at column
      cases column
    · obtain ⟨fault, refused, -⟩ := givenUp answer
      rw [refused] at condition
      cases condition
  case fails_as_both =>
    intro fault refused kind
    rcases answer : ((bracketOperand (rules depth)).on { room } workspace).1 with other | id
    · exact ⟨other, rfl⟩
    · obtain ⟨fault', refused', none⟩ := givenUp answer
      rw [refused] at refused'
      cases refused'
      exact absurd none kind
  case same_in_both_orders => exact fun _ _ => on_term_eq_ok_iff depth rfl closed atBracket

/-- The words of `((1) + 1) > 1` over a new tree. -/
def nestedBracket : Workspace :=
  { words := (TokenStream.ofString "((1) + 1) > 1").words, nesting := 0, tree := .new }

theorem readings_exclude_nestedBracket :
    nestedBracket.tree.Made ∧
      nestedBracket.words.head?.map Word.kind = some .leftParen ∧
      ReadingsExclude (rules 8) { room := 128 } nestedBracket := by
  have atBracket : nestedBracket.words.head?.map Word.kind = some .leftParen := by
    decide +kernel
  exact ⟨.new, atBracket, readings_exclude 8 128 .new atBracket⟩

end Build

end SelectTree
