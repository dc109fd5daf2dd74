/-
Module: SelectTree.Proofs.Parse.Flat
Purpose: no chain of a parsed tree has a chain of its own kind as one of its parts.
Main exports: Avoids, IsOperand, Node.Flat, chains_flat
-/
import SelectTree.Proofs.Build.Chain
import SelectTree.Proofs.Parse.Shape

namespace SelectTree

/-- A child is there, and its node is of none of these kinds. -/
def Avoids (look : LookUp) (kinds : List Kind) (slot : Slot) : Prop :=
  Holds look slot fun node => node.kind ∉ kinds

/-- A child is there that may stand beside an operator. -/
def IsOperand (look : LookUp) (slot : Slot) : Prop :=
  Avoids look [.arithmeticColumn, .overColumn, .aliasColumn] slot

/-- Chains have at least one link, are in the order of their numbers, and have no chain of their
kind as a part; prefixes and windows are not put on chains that they would have to be inside of. -/
def Node.Flat (look : LookUp) : Node → Prop
  | .column (.arithmetic left operations) =>
      operations ≠ [] ∧ Ascending (left :: operations) ∧ IsOperand look left ∧
        ∀ slot ∈ operations, Holds look slot fun node =>
          ∃ operator operand, node = .element (.arithmeticOperation operator operand) ∧
            IsOperand look operand
  | .column (.negated operand) => IsOperand look operand
  | .column (.windowed columnSlot _) => Avoids look [.overColumn, .aliasColumn] columnSlot
  | .condition (.chain left links) =>
      links ≠ [] ∧ Ascending (left :: links) ∧ Avoids look [.chainCondition] left ∧
        ∀ slot ∈ links, Holds look slot fun node =>
          ∃ operator term, node = .element (.conditionLink operator term) ∧
            Avoids look [.chainCondition] term
  | .condition (.not term) => Avoids look [.chainCondition] term
  | .relation (.joinChain left joins) =>
      joins ≠ [] ∧ Ascending (left :: joins) ∧ Avoids look [.joinChainRelation] left ∧
        ∀ slot ∈ joins, Holds look slot fun node =>
          ∃ joinType source conditionSlot,
            node = .element (.join joinType source conditionSlot) ∧
            Avoids look [.joinChainRelation] source
  | _ => True

section

variable {look : LookUp} {slot : Slot}

theorem Shows.isOperand (shown : Shows look .operand slot) : IsOperand look slot :=
  shown.imp fun _ => Form.kind_of_admits_operand

/-- A term is no chain of terms. -/
theorem Shows.avoids_chain (shown : Shows look .term slot) : Avoids look [.chainCondition] slot :=
  shown.imp fun _ admits => by simpa using Form.kind_of_admits_term admits

/-- A source is no chain of joins. -/
theorem Shows.avoids_joinChain (shown : Shows look .source slot) :
    Avoids look [.joinChainRelation] slot :=
  shown.imp fun _ admits => by simpa using Form.kind_of_admits_source admits

/-- A column that is not a window shows no alias either. -/
theorem Shows.avoids_window (shown : Shows look .column slot)
    (noWindow : Holds look slot fun node => node.kind ≠ .overColumn) :
    Avoids look [.overColumn, .aliasColumn] slot := by
  obtain ⟨id, node, rfl, found, admits⟩ := shown
  obtain ⟨_, _, ⟨⟩, foundAgain, notOver⟩ := noWindow
  rw [found] at foundAgain
  cases foundAgain
  have notAlias := Form.kind_of_admits_column admits
  exact .of_look found (by simp [notOver, notAlias])

/-- Where every node is such as the grammar describes, every node is flat. -/
theorem Node.Regular.flat (all : ∀ id node, look id = some node → node.Regular look) {node : Node}
    (regular : node.Regular look) : node.Flat look := by
  have shows := regular.shows
  have chained := regular.chained
  cases node with
  | column column =>
      cases column with
      | arithmetic left operations =>
          obtain ⟨leftShown, operationsShown⟩ := ShowsAll.cons_iff.1 shows
          refine ⟨chained.1, chained.2, leftShown.isOperand, fun slot member => ?_⟩
          obtain ⟨id, node, rfl, found, admits⟩ := ShowsAll.each_iff.1 operationsShown slot member
          obtain ⟨operator, operand, rfl⟩ := Form.exists_of_admits_operation admits
          have operandShown := (ShowsAll.cons_iff.1 (all id _ found).shows).1
          exact .of_look found ⟨operator, operand, rfl, operandShown.isOperand⟩
      | negated operand => exact (ShowsAll.cons_iff.1 shows).1.isOperand
      | windowed columnSlot window => exact (ShowsAll.cons_iff.1 shows).1.avoids_window chained
      | _ => trivial
  | condition condition =>
      cases condition with
      | chain left links =>
          obtain ⟨leftShown, linksShown⟩ := ShowsAll.cons_iff.1 shows
          refine ⟨chained.1, chained.2, leftShown.avoids_chain, fun slot member => ?_⟩
          obtain ⟨id, node, rfl, found, admits⟩ := ShowsAll.each_iff.1 linksShown slot member
          obtain ⟨operator, term, rfl⟩ := Form.exists_of_admits_link admits
          have termShown := (ShowsAll.cons_iff.1 (all id _ found).shows).1
          exact .of_look found ⟨operator, term, rfl, termShown.avoids_chain⟩
      | not term => exact (ShowsAll.cons_iff.1 shows).1.avoids_chain
      | _ => trivial
  | relation relation =>
      cases relation with
      | joinChain left joins =>
          obtain ⟨leftShown, joinsShown⟩ := ShowsAll.cons_iff.1 shows
          refine ⟨chained.1, chained.2, leftShown.avoids_joinChain, fun slot member => ?_⟩
          obtain ⟨id, node, rfl, found, admits⟩ := ShowsAll.each_iff.1 joinsShown slot member
          obtain ⟨joinType, source, conditionSlot, rfl⟩ := Form.exists_of_admits_join admits
          have sourceShown := (ShowsAll.cons_iff.1 (all id _ found).shows).1
          exact .of_look found
            ⟨joinType, source, conditionSlot, rfl, sourceShown.avoids_joinChain⟩
      | _ => trivial
  | _ => trivial

end

/-- Every chain of a parsed tree is flat and in the order of its numbers, which is the order in
which its parts stand in the source: the rules read them from left to right. -/
theorem chains_flat :
    (∀ {entry : EntryPoint} {source : String} {options : Options} {tree : Tree},
      parse entry source options {} = .ok tree →
      ∀ id node, tree.node? id = some node → node.Flat tree.node?) ∧
    ∀ rules : Build.Rules, rules.ReadInOrder := by
  refine ⟨?_, Build.rules_readInOrder⟩
  intro entry source options tree parsed id node found
  obtain ⟨phrase, rfl⟩ := exists_phrase_of_parse parsed
  exact (phrase.regular found).flat fun _ _ => phrase.regular

/-- The tree of `1 + -(2 - 3)`.  The bracket keeps the inner run apart from the prefix and from the
outer run. -/
def nestedRuns : Tree :=
  { entries := #[
      { node := .root (some ⟨9⟩), parent := none },
      { node := .column (.literal (.integer 1)), parent := some ⟨9⟩ },
      { node := .column (.literal (.integer 2)), parent := some ⟨5⟩ },
      { node := .column (.literal (.integer 3)), parent := some ⟨4⟩ },
      { node := .element (.arithmeticOperation .subtract (some ⟨3⟩)), parent := some ⟨5⟩ },
      { node := .column (.arithmetic (some ⟨2⟩) [some ⟨4⟩]), parent := some ⟨6⟩ },
      { node := .column (.bracket (some ⟨5⟩)), parent := some ⟨7⟩ },
      { node := .column (.negated (some ⟨6⟩)), parent := some ⟨8⟩ },
      { node := .element (.arithmeticOperation .add (some ⟨7⟩)), parent := some ⟨9⟩ },
      { node := .column (.arithmetic (some ⟨1⟩) [some ⟨8⟩]), parent := some ⟨0⟩ }] }

theorem parse_nestedRuns : parse .column "1 + -(2 - 3)" {} {} = .ok nestedRuns := by
  decide +kernel

/-- The words of `1 = 1 OR 2 = 2`, before any node is added. -/
def linkedComparisons : Workspace :=
  { words := (TokenStream.ofString "1 = 1 OR 2 = 2").words, nesting := 0, tree := .new }

theorem answer_linkedComparisons :
    ((Build.condition (Build.rules 4)).on { room := 4 } linkedComparisons).1 = .ok ⟨8⟩ := by
  decide +kernel

theorem chains_flat_nestedRuns :
    parse .column "1 + -(2 - 3)" {} {} = .ok nestedRuns ∧
      (∀ id node, nestedRuns.node? id = some node → node.Flat nestedRuns.node?) ∧
      ∃ behind,
        (Build.condition (Build.rules 4)).on { room := 4 } linkedComparisons =
          (.ok ⟨8⟩, behind) ∧
        Builder.ReadsChain (Build.term (Build.rules 4)) (Build.link (Build.rules 4))
          (fun left links => .condition (.chain left links)) { room := 4 } linkedComparisons ⟨8⟩
          behind := by
  refine ⟨parse_nestedRuns, chains_flat.1 parse_nestedRuns, ?_⟩
  have answered := answer_linkedComparisons
  rcases ran : (Build.condition (Build.rules 4)).on { room := 4 } linkedComparisons
    with ⟨answer, behind⟩
  rw [ran] at answered
  cases answered
  exact ⟨behind, rfl, (chains_flat.2 (Build.rules 4)).condition _ _ _ _ ran⟩

end SelectTree
