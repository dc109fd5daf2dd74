/-
Module: SelectTree.Proofs.Build.Nested
Purpose: a statement inside of another one, and a condition behind WHERE, have the trees that they
  have by themselves.
Main exports: Site.before, Site.holder, Site.around, Site.layout_plug, Rule.statements_nest
-/
import SelectTree.Proofs.Build.Consumes
import SelectTree.Proofs.Grammar.Site

namespace SelectTree

/-- The node of a select block that selects one column. -/
def Node.selecting (column : NodeId) (sources : List Slot) (filter : Slot) : Node :=
  .select none none false [some column] sources none filter none none

namespace Site

/-- The nodes that are added before those of the statement in the place. -/
def before : Site → List Node
  | .subselect | .cte _ _ => []
  | .membership count name =>
      [.column (.literal (.integer count)), .column (.primitive none (.plain name))]
  | .existence count | .derived count _ => [.column (.literal (.integer count))]

/-- The node that holds the statement in the place. -/
def holder : Site → NodeId → Node
  | .subselect, statement => .column (.subselect (some statement))
  | .membership _ _, statement => .condition (.inSelect (some ⟨2⟩) false (some statement))
  | .existence _, statement => .condition (.exists (some statement))
  | .derived _ name, statement => .relation (.subselect (some statement) (.plain name))
  | .cte name _, statement => .element (.cte (.plain name) [] (some statement))

/-- The nodes that are added behind the one that holds the statement in the place. -/
def around : Site → NodeId → List Node
  | .subselect, holder =>
      [.selecting holder [] none, .statement [] [some (holder.shift 1)] none none]
  | .membership _ _, holder | .existence _, holder =>
      [.selecting ⟨1⟩ [] (some holder), .statement [] [some (holder.shift 1)] none none]
  | .derived _ _, holder =>
      [.selecting ⟨1⟩ [some holder] none, .statement [] [some (holder.shift 1)] none none]
  | .cte _ count, holder =>
      [.column (.literal (.integer count)), .selecting (holder.shift 1) [] none,
        .statement [some holder] [some (holder.shift 2)] none none]

/-- All nodes, when the statement in the place has these. -/
def nodes (site : Site) (statement : NodeId) (inner : List Node) : List Node :=
  let distance := site.before.length
  site.before ++ inner.map (Node.shift distance) ++
    site.holder (statement.shift distance) :: site.around ⟨1 + distance + inner.length⟩

attribute [local simp] plug Phrase.filtered Phrase.query nodes before holder around
  Phrase.layout Phrases.layout Perhaps.layout Node.selecting slots NodeId.shift
  Connective.operator? in
/-- The nodes of a statement with another one inside. -/
theorem layout_plug (site : Site) (statement : Statement) :
    (site.plug statement).layout.run 1 =
      (⟨(site.nodes (statement.layout.run 1).1 (statement.layout.run 1).2).length⟩,
        site.nodes (statement.layout.run 1).1 (statement.layout.run 1).2) := by
  -- As many places further as nodes come before.
  have second : statement.layout.run 2 = _ := statement.moves 1 1
  have third : statement.layout.run 3 = _ := statement.moves 2 1
  cases site with
  | subselect | cte name count =>
      simp
      omega
  | membership count name =>
      simp [third]
      omega
  | existence count | derived count name =>
      simp [second]
      omega

/-- The tree of a statement with another one inside: the nodes before the place, the tree of the one
inside, the node that holds it, and what is around. -/
theorem tree_plug (site : Site) (statement : Statement) :
    let distance := site.before.length
    let tree := Tree.new.attachAll (statement.layout.run 1).2
    let grown := (Tree.new.attachAll site.before).graft tree
    let whole := grown.attachAll (site.holder ((statement.layout.run 1).1.shift distance) ::
      site.around grown.nextId)
    ((site.plug statement).layout.run 1).1 = ⟨whole.size - 1⟩ ∧
      Tree.new.attachAll ((site.plug statement).layout.run 1).2 = whole ∧
      whole.Carries tree distance := by
  intro distance tree grown whole
  have around := statement.tree_around (site.plug statement) rfl (site.layout_plug statement)
  rw [← Tree.nextId_graft] at around
  exact around

end Site

section Filtered

variable (count : Int) (filter : Condition)

/-- The nodes of a statement that selects a constant under a condition that has these nodes. -/
def Node.filtered (condition : NodeId) (inner : List Node) : List Node :=
  [.column (.literal (.integer count))] ++ inner.map (Node.shift 1) ++
    [.selecting ⟨1⟩ [] (some (condition.shift 1)),
     .statement [] [some ⟨2 + inner.length⟩] none none]

theorem Phrase.layout_filtered :
    (filtered count filter).layout.run 1 =
      (⟨(Node.filtered count (filter.layout.run 1).1 (filter.layout.run 1).2).length⟩,
        Node.filtered count (filter.layout.run 1).1 (filter.layout.run 1).2) := by
  have moved : filter.layout.run 2 = _ := filter.moves 1 1
  simp [filtered, query, layout, Phrases.layout, Perhaps.layout, Node.filtered, Node.selecting,
    slots, Connective.operator?, moved]
  omega

/-- The tree of the statement: the constant, the tree of the condition, the block and the statement
itself. -/
theorem Phrase.tree_filtered :
    let tree := Tree.new.attachAll (filter.layout.run 1).2
    let grown := (Tree.new.attachAll [.column (.literal (.integer count))]).graft tree
    let whole := grown.attachAll [.selecting ⟨1⟩ [] (some ((filter.layout.run 1).1.shift 1)),
      .statement [] [some grown.nextId] none none]
    ((filtered count filter).layout.run 1).1 = ⟨whole.size - 1⟩ ∧
      Tree.new.attachAll ((filtered count filter).layout.run 1).2 = whole ∧
      whole.Carries tree 1 := by
  intro tree grown whole
  have next : grown.nextId = ⟨2 + (filter.layout.run 1).2.length⟩ := Tree.nextId_graft _ _
  have around := filter.tree_around (filtered count filter) rfl (layout_filtered count filter)
  rw [← next] at around
  exact around

end Filtered

namespace Rule

section Consumes

variable {limit : Nat} {front inner back : Words} {id : NodeId} {tree : Tree}

/-- A statement that is consumed by itself is consumed in brackets inside of another one, with one
more level of brackets. -/
theorem Consumes.nested (site : Site) (frontKinds : front.map Word.kind = site.front)
    (backKinds : back.map Word.kind = site.back)
    (consumes : Rule.statement.Consumes limit inner id tree) :
    let distance := site.before.length
    let grown := (Tree.new.attachAll site.before).graft tree
    let whole := grown.attachAll (site.holder (id.shift distance) :: site.around grown.nextId)
    Rule.statement.Consumes (limit + 1) (front ++ inner ++ back) ⟨whole.size - 1⟩ whole ∧
      whole.Carries tree distance := by
  obtain ⟨statement, balanced, deeper, rfl, rfl⟩ := consumes.exists_statement
  have frontLength : 2 ≤ front.length := by
    rw [← List.length_map Word.kind, frontKinds]
    cases site <;> simp [Site.front]
  obtain ⟨more, length⟩ := Nat.exists_eq_add_of_le frontLength
  let depth := more + inner.length + back.length + 1
  have total : (front ++ inner ++ back).length + 1 = depth + 2 := by
    simp only [List.length_append, depth]
    omega
  have inside : ∀ deep, depth ≤ deep →
      Grammar.statement (Grammar.rules deep) { room := limit } inner = .ok (statement, []) := by
    intro deep le
    exact deeper deep 0 (by omega)
  have plugged : Grammar.statement (Grammar.rules (depth + 2)) (Scope.widen { room := limit } 1)
      (front ++ inner ++ back) = .ok (site.plug statement, []) :=
    site.read_plug frontKinds backKinds rfl balanced inside
  have read : Rule.statement.step (Grammar.rules ((front ++ inner ++ back).length + 1))
      { room := limit + 1 } (front ++ inner ++ back) = .ok (site.plug statement, []) := by
    rw [total]
    exact plugged
  have consumed : Rule.statement.Consumes (limit + 1) (front ++ inner ++ back)
      ((site.plug statement).layout.run 1).1
      (Tree.new.attachAll ((site.plug statement).layout.run 1).2) := consumes_of_step read
  obtain ⟨sameId, sameTree, carries⟩ := site.tree_plug statement
  rw [sameId, sameTree] at consumed
  exact ⟨consumed, carries⟩

/-- A condition that is consumed by itself is consumed behind WHERE, with no more levels. -/
theorem Consumes.filtered {count : Int}
    (frontKinds : front.map Word.kind = [.keyword .SELECT, .integer count, .keyword .WHERE])
    (consumes : Rule.condition.Consumes limit inner id tree) :
    let grown := (Tree.new.attachAll [.column (.literal (.integer count))]).graft tree
    let whole := grown.attachAll [.selecting ⟨1⟩ [] (some (id.shift 1)),
      .statement [] [some grown.nextId] none none]
    Rule.statement.Consumes limit (front ++ inner) ⟨whole.size - 1⟩ whole ∧
      whole.Carries tree 1 := by
  obtain ⟨filter, -, deeper, rfl, rfl⟩ := consumes.exists_condition
  simp only [List.map_eq_cons_iff, List.map_eq_nil_iff] at frontKinds
  obtain ⟨select, _, rfl, selects, selected, _, rfl, isCount, condition, _, rfl, isWhere, rfl⟩ :=
    frontKinds
  have read := Site.read_filtered selects isCount isWhere rfl
    (deeper (inner.length + 3) 0 (by omega))
  have consumed : Rule.statement.Consumes limit ([select, selected, condition] ++ inner)
      ((Phrase.filtered count filter).layout.run 1).1
      (Tree.new.attachAll ((Phrase.filtered count filter).layout.run 1).2) := consumes_of_step read
  obtain ⟨sameId, sameTree, carries⟩ := Phrase.tree_filtered count filter
  rw [sameId, sameTree] at consumed
  exact ⟨consumed, carries⟩

end Consumes

/-- Whatever the limit is, a statement is the same inside of another one as by itself: with one more
level of brackets it is consumed at each of the places, and its tree is there, all numbers as many
places further as nodes come before.  A condition behind WHERE is the same as by itself too, with no
more levels. -/
theorem statements_nest (limit : Nat) :
    (∀ (site : Site) {front inner back : Words} {id : NodeId} {tree : Tree},
      front.map Word.kind = site.front → back.map Word.kind = site.back →
      Rule.statement.Consumes limit inner id tree →
        let distance := site.before.length
        let grown := (Tree.new.attachAll site.before).graft tree
        let whole := grown.attachAll (site.holder (id.shift distance) :: site.around grown.nextId)
        Rule.statement.Consumes (limit + 1) (front ++ inner ++ back) ⟨whole.size - 1⟩ whole ∧
          whole.node? grown.nextId = some (site.holder (id.shift distance)) ∧
          whole.Carries tree distance) ∧
    ∀ {count : Int} {front inner : Words} {id : NodeId} {tree : Tree},
      front.map Word.kind = [.keyword .SELECT, .integer count, .keyword .WHERE] →
      Rule.condition.Consumes limit inner id tree →
        let grown := (Tree.new.attachAll [.column (.literal (.integer count))]).graft tree
        let whole := grown.attachAll [.selecting ⟨1⟩ [] (some (id.shift 1)),
          .statement [] [some grown.nextId] none none]
        Rule.statement.Consumes limit (front ++ inner) ⟨whole.size - 1⟩ whole ∧
          whole.node? grown.nextId = some (.selecting ⟨1⟩ [] (some (id.shift 1))) ∧
          whole.Carries tree 1 := by
  constructor
  · intro site front inner back id tree frontKinds backKinds consumes distance grown whole
    obtain ⟨consumed, carries⟩ := consumes.nested site frontKinds backKinds
    exact ⟨consumed, Tree.node?_attachAll_cons .., carries⟩
  · intro count front inner id tree frontKinds consumes grown whole
    obtain ⟨consumed, carries⟩ := consumes.filtered frontKinds
    exact ⟨consumed, Tree.node?_attachAll_cons .., carries⟩

/-- The statement `SELECT (x)` behind FROM, and the condition `(1) = 1` behind WHERE. -/
theorem statements_nest_bracketed :
    let words (source : String) : Words := (TokenStream.ofString source).words
    let site := Site.derived 1 "q"
    let inner := Tree.new.attachAll [.column (.primitive none (.plain "x")),
      .column (.bracket (some ⟨1⟩)), .selecting ⟨2⟩ [] none, .statement [] [some ⟨3⟩] none none]
    let nested := (Tree.new.attachAll site.before).graft inner
    let statement := nested.attachAll (site.holder ⟨5⟩ :: site.around nested.nextId)
    let comparison := Tree.new.attachAll [.column (.literal (.integer 1)),
      .column (.bracket (some ⟨1⟩)), .column (.literal (.integer 1)),
      .condition (.comparison (some ⟨2⟩) .eq (some ⟨3⟩))]
    let filter := (Tree.new.attachAll [.column (.literal (.integer 1))]).graft comparison
    let filtered := filter.attachAll [.selecting ⟨1⟩ [] (some ⟨5⟩),
      .statement [] [some filter.nextId] none none]
    Rule.statement.Consumes 2 (words "SELECT 1 FROM (" ++ words "SELECT (x)" ++ words ") q")
        ⟨statement.size - 1⟩ statement ∧
      Rule.statement.Consumes 1 (words "SELECT 1 WHERE" ++ words "(1) = 1")
        ⟨filtered.size - 1⟩ filtered := by
  intro words site inner nested statement comparison filter filtered
  have nest := statements_nest 1
  have front : (words "SELECT 1 FROM (").map Word.kind = site.front := by decide +kernel
  have back : (words ") q").map Word.kind = site.back := by decide +kernel
  have asStatement : Rule.statement.Consumes 1 (words "SELECT (x)") ⟨4⟩ inner := by
    decide +kernel
  have frontOfFilter : (words "SELECT 1 WHERE").map Word.kind =
      [.keyword .SELECT, .integer 1, .keyword .WHERE] := by decide +kernel
  have asCondition : Rule.condition.Consumes 1 (words "(1) = 1") ⟨4⟩ comparison := by
    decide +kernel
  exact ⟨(nest.1 site front back asStatement).1, (nest.2 frontOfFilter asCondition).1⟩

end Rule

end SelectTree
