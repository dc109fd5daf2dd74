/-
Module: SelectTree.Proofs.Build.Bracketed
Purpose: a condition in brackets is a condition, and a column in brackets can be compared, whatever
  either of them is.
Main exports: Rule.Consumes.bracketCondition, Rule.Consumes.bracketComparison,
  Rule.brackets_disambiguated
-/
import SelectTree.Proofs.Build.Consumes
import SelectTree.Proofs.Grammar.Reading

namespace SelectTree

/-! ### Trees of brackets -/

section Condition

variable (inner : Condition)

/-- A condition in brackets. -/
def Phrase.bracketed : Condition :=
  .condition (.bracketedCondition inner) .nil

theorem Phrase.layout_bracketed :
    inner.bracketed.layout.run 1 =
      ((Tree.new.attachAll (inner.layout.run 1).2).nextId,
        (inner.layout.run 1).2 ++ [.condition (.bracket (some (inner.layout.run 1).1))]) := by
  simp [bracketed, layout, Phrases.layout, Tree.nextId_attachAll]

/-- The tree of a condition in brackets: the condition and one node more. -/
theorem Phrase.tree_bracketed :
    let tree := Tree.new.attachAll (inner.layout.run 1).2
    let whole := tree.attach (.condition (.bracket (some (inner.layout.run 1).1)))
    (inner.bracketed.layout.run 1).1 = tree.nextId ∧
      Tree.new.attachAll (inner.bracketed.layout.run 1).2 = whole ∧ whole.Carries tree 0 := by
  intro tree whole
  have isWhole : Tree.new.attachAll (inner.bracketed.layout.run 1).2 = whole := by
    rw [layout_bracketed, Tree.attachAll_concat]
  refine ⟨by rw [layout_bracketed], isWhole, ?_⟩
  rw [← isWhole]
  apply inner.carries_of_begins
  rw [layout_bracketed]
  exact List.prefix_append ..

end Condition

section Comparison

variable (x y : Column) (operator : OrderOperator)

/-- A comparison of a column in brackets with another column. -/
def Phrase.bracketComparison : Condition :=
  .condition (.comparison (.column (.bracketedColumn x) .nil .absent) operator y) .nil

/-- The nodes of a column and of the brackets around it. -/
def Phrase.bracketNodes : List Node :=
  (x.layout.run 1).2 ++ [.column (.bracket (some (x.layout.run 1).1))]

theorem Phrase.length_bracketNodes :
    x.bracketNodes.length = (Tree.new.attachAll (x.layout.run 1).2).size := by
  rw [Tree.size_attachAll, bracketNodes, List.length_append]
  exact Nat.add_comm ..

theorem Phrase.layout_bracketComparison :
    (x.bracketComparison y operator).layout.run 1 =
      ((Tree.new.attachAll (x.bracketNodes ++ (y.layout.run 1).2)).nextId,
        x.bracketNodes ++ (y.layout.run 1).2.map (Node.shift x.bracketNodes.length) ++
          [.condition (.comparison (some { index := x.bracketNodes.length }) operator.toComparison
            (some ((y.layout.run 1).1.shift x.bracketNodes.length)))]) := by
  have length : x.bracketNodes.length = (x.layout.run 1).2.length + 1 := List.length_append
  have moved := y.moves x.bracketNodes.length 1
  rw [length] at moved ⊢
  simp [bracketComparison, bracketNodes, layout, Phrases.layout, Perhaps.layout, moved,
    Tree.nextId_attachAll]
  omega

/-- The tree of the comparison: the left column, its bracket, the right column, and the comparison
itself. -/
theorem Phrase.tree_bracketComparison :
    let left := Tree.new.attachAll (x.layout.run 1).2
    let both := (left.attach (.column (.bracket (some (x.layout.run 1).1)))).graft
      (Tree.new.attachAll (y.layout.run 1).2)
    ((x.bracketComparison y operator).layout.run 1).1 = both.nextId ∧
      Tree.new.attachAll ((x.bracketComparison y operator).layout.run 1).2 =
        both.attach (.condition (.comparison (some left.nextId) operator.toComparison
          (some ((y.layout.run 1).1.shift left.size)))) := by
  intro left both
  have isBoth : Tree.new.attachAll
      (x.bracketNodes ++ (y.layout.run 1).2.map (Node.shift x.bracketNodes.length)) = both := by
    rw [← Tree.graft_attachAll, bracketNodes, Tree.attachAll_concat]
  constructor
  · rw [layout_bracketComparison, ← isBoth, Tree.nextId_attachAll, Tree.nextId_attachAll]
    simp
  · rw [layout_bracketComparison, Tree.attachAll_concat, isBoth, length_bracketNodes]
    rfl

/-- Both columns are carried by the tree of their comparison. -/
theorem Phrase.carries_bracketComparison :
    let left := Tree.new.attachAll (x.layout.run 1).2
    let whole := Tree.new.attachAll ((x.bracketComparison y operator).layout.run 1).2
    whole.Carries left 0 ∧ whole.Carries (Tree.new.attachAll (y.layout.run 1).2) left.size := by
  have layout := congrArg Prod.snd (x.layout_bracketComparison y operator)
  constructor
  · apply x.carries_of_begins
    rw [layout]
    exact ((List.prefix_append ..).trans (List.prefix_append ..)).trans (List.prefix_append ..)
  · rw [← length_bracketNodes]
    exact y.carries _ x.bracketNodes _ layout

end Comparison

namespace Rule

section Consumes

variable {limit : Nat} {words left right : Words} {opening closing symbol : Word}
  {id leftId rightId : NodeId} {tree leftTree rightTree : Tree}

/-- A condition in brackets is a condition, with one node behind those of the one inside. -/
theorem Consumes.bracketCondition (opens : opening.kind = .leftParen)
    (closes : closing.kind = .rightParen)
    (consumes : Rule.condition.Consumes limit words id tree) :
    let whole := tree.attach (.condition (.bracket (some id)))
    Rule.condition.Consumes (limit + 1) (opening :: words ++ [closing]) tree.nextId whole ∧
      whole.Carries tree 0 := by
  obtain ⟨inner, balanced, deeper, rfl, rfl⟩ := consumes.exists_condition
  have length : (opening :: words ++ [closing]).length = words.length + 2 := by simp
  have inside := deeper (words.length + 2) 0 (by omega)
  have read : Rule.condition.step (Grammar.rules ((opening :: words ++ [closing]).length + 1))
      { room := limit + 1 } (opening :: words ++ [closing]) = .ok (inner.bracketed, []) := by
    rw [length]
    exact Grammar.condition_of_bracketed_condition rfl opens balanced closes inside
  have consumed : Rule.condition.Consumes (limit + 1) (opening :: words ++ [closing])
      (inner.bracketed.layout.run 1).1 (Tree.new.attachAll (inner.bracketed.layout.run 1).2) :=
    consumes_of_step read
  obtain ⟨sameId, sameTree, carries⟩ := inner.tree_bracketed
  rw [sameId, sameTree] at consumed
  exact ⟨consumed, carries⟩

/-- A column in brackets can be compared.  The nodes are those of the column, its bracket, those of
the right side, and the comparison. -/
theorem Consumes.bracketComparison {operator : OrderOperator} (opens : opening.kind = .leftParen)
    (closes : closing.kind = .rightParen)
    (compares : Grammar.orderOperator? symbol.kind = some operator)
    (consumesLeft : Rule.column.Consumes limit left leftId leftTree)
    (consumesRight : Rule.column.Consumes limit right rightId rightTree) :
    let both := (leftTree.attach (.column (.bracket (some leftId)))).graft rightTree
    let whole := both.attach (.condition (.comparison (some leftTree.nextId) operator.toComparison
      (some (rightId.shift leftTree.size))))
    Rule.condition.Consumes (limit + 1) (opening :: left ++ closing :: symbol :: right)
        both.nextId whole ∧
      whole.Carries leftTree 0 ∧ whole.Carries rightTree leftTree.size := by
  obtain ⟨x, balanced, deeperLeft, rfl, rfl⟩ := consumesLeft.exists_column
  obtain ⟨y, -, deeperRight, rfl, rfl⟩ := consumesRight.exists_column
  let words := opening :: left ++ closing :: symbol :: right
  have length : words.length = left.length + right.length + 3 := by
    simp [words]
    omega
  have insideLeft := deeperLeft (left.length + right.length + 3) 0 (by omega)
  have insideRight := deeperRight (left.length + right.length + 3) 1 (by omega)
  have read : Rule.condition.step (Grammar.rules (words.length + 1)) { room := limit + 1 } words =
      .ok (x.bracketComparison y operator, []) := by
    rw [length]
    exact Grammar.condition_of_bracketed_column rfl opens balanced closes compares insideLeft
      insideRight
  have consumed : Rule.condition.Consumes (limit + 1) words
      ((x.bracketComparison y operator).layout.run 1).1
      (Tree.new.attachAll ((x.bracketComparison y operator).layout.run 1).2) :=
    consumes_of_step read
  have carries := x.carries_bracketComparison y operator
  obtain ⟨sameId, sameTree⟩ := x.tree_bracketComparison y operator
  rw [sameId, sameTree] at consumed
  rw [sameTree] at carries
  exact ⟨consumed, carries⟩

end Consumes

/-- What a bracket holds decides how it is read, whatever the limit and however deep the words go
inside: the words of a condition become a condition in brackets over the same tree, and the words of
a column, in front of a comparison, become a column in brackets, over the same tree too. -/
theorem brackets_disambiguated (limit : Nat) {opening closing : Word}
    (opens : opening.kind = .leftParen) (closes : closing.kind = .rightParen) :
    (∀ {words : Words} {id : NodeId} {tree : Tree},
      Rule.condition.Consumes limit words id tree →
        let whole := tree.attach (.condition (.bracket (some id)))
        Rule.condition.Consumes (limit + 1) (opening :: words ++ [closing]) tree.nextId whole ∧
          whole.Carries tree 0) ∧
    ∀ {left right : Words} {leftId rightId : NodeId} {leftTree rightTree : Tree} {symbol : Word}
      {operator : OrderOperator},
      Rule.column.Consumes limit left leftId leftTree →
      Rule.column.Consumes limit right rightId rightTree →
      Grammar.orderOperator? symbol.kind = some operator →
        let both := (leftTree.attach (.column (.bracket (some leftId)))).graft rightTree
        let whole := both.attach (.condition (.comparison (some leftTree.nextId)
          operator.toComparison (some (rightId.shift leftTree.size))))
        Rule.condition.Consumes (limit + 1) (opening :: left ++ closing :: symbol :: right)
            both.nextId whole ∧
          whole.Carries leftTree 0 ∧ whole.Carries rightTree leftTree.size := by
  constructor
  · intro words id tree consumes
    exact consumes.bracketCondition opens closes
  · intro left right leftId rightId leftTree rightTree symbol operator consumesLeft consumesRight
      compares
    exact consumesLeft.bracketComparison opens closes compares consumesRight

/-- The words `(1) = 1` and `(1) + 2 > 3` in one more bracket, or with the left side in one. -/
theorem brackets_disambiguated_nested :
    let words (source : String) : Words := (TokenStream.ofString source).words
    let opening : Word := { kind := .leftParen, text := "(", glued := false, index := 0 }
    let closing : Word := { kind := .rightParen, text := ")", glued := true, index := 0 }
    let symbol : Word := { kind := .gt, text := ">", glued := false, index := 0 }
    let comparison := Tree.new.attachAll [.column (.literal (.integer 1)),
      .column (.bracket (some ⟨1⟩)), .column (.literal (.integer 1)),
      .condition (.comparison (some ⟨2⟩) .eq (some ⟨3⟩))]
    let sum := Tree.new.attachAll [.column (.literal (.integer 1)),
      .column (.bracket (some ⟨1⟩)), .column (.literal (.integer 2)),
      .element (.arithmeticOperation .add (some ⟨3⟩)),
      .column (.arithmetic (some ⟨2⟩) [some ⟨4⟩])]
    let three := Tree.new.attachAll [.column (.literal (.integer 3))]
    let both := (sum.attach (.column (.bracket (some ⟨5⟩)))).graft three
    Rule.condition.Consumes 2 (opening :: words "(1) = 1" ++ [closing]) ⟨5⟩
        (comparison.attach (.condition (.bracket (some ⟨4⟩)))) ∧
      Rule.condition.Consumes 2 (opening :: words "(1) + 2" ++ closing :: symbol :: words "3") ⟨8⟩
        (both.attach (.condition (.comparison (some ⟨6⟩) .gt (some ⟨7⟩)))) := by
  intro words opening closing symbol comparison sum three both
  have opens : opening.kind = .leftParen := rfl
  have closes : closing.kind = .rightParen := rfl
  have apart := brackets_disambiguated 1 opens closes
  have asCondition : Rule.condition.Consumes 1 (words "(1) = 1") ⟨4⟩ comparison := by
    decide +kernel
  have left : Rule.column.Consumes 1 (words "(1) + 2") ⟨5⟩ sum := by decide +kernel
  have right : Rule.column.Consumes 1 (words "3") ⟨1⟩ three := by decide +kernel
  have compares : Grammar.orderOperator? symbol.kind = some .gt := rfl
  exact ⟨(apart.1 asCondition).1, (apart.2 left right compares).1⟩

end Rule

end SelectTree
