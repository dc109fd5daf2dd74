/-
Module: SelectTree.Proofs.Build.Consumes
Purpose: a rule that consumes words as a whole, over a new tree and with a limit.
Main exports: Rule.Consumes, Rule.Consumes.exists_phrase, Rule.consumes_of_step
-/
import SelectTree.Proofs.Build.Rule
import SelectTree.Proofs.Grammar.Deepen
import SelectTree.Proofs.Tree.Graft

namespace SelectTree

namespace Rule

/-- The rule consumes all the words, with room for so many levels of brackets and without hooks, and
makes of a new tree this tree, in which the number names the phrase. -/
def Consumes (rule : Rule) (limit : Nat) (words : Words) (id : NodeId) (tree : Tree) : Prop :=
  rule.builder.on { room := limit } { words, nesting := 0, tree := .new } =
    (.ok id, { words := [], nesting := 0, tree })

instance (rule : Rule) (limit : Nat) (words : Words) (id : NodeId) (tree : Tree) :
    Decidable (rule.Consumes limit words id tree) :=
  inferInstanceAs (Decidable (_ = _))

variable {rule : Rule} {limit : Nat} {words : Words} {id : NodeId} {tree : Tree}

/-- The workspace in which a rule begins. -/
def begin (words : Words) : Workspace :=
  { words, nesting := 0, tree := .new }

theorem closed_begin (words : Words) : (begin words).tree.Closed :=
  .new

/-- Words that a rule reads as a whole are consumed, and the tree is the layout of what is read. -/
theorem consumes_of_step {phrase : Phrase rule.form}
    (read : rule.step (Grammar.rules (words.length + 1)) { room := limit } words =
      .ok (phrase, [])) :
    rule.Consumes limit words (phrase.layout.run 1).1
      (Tree.new.attachAll (phrase.layout.run 1).2) := by
  have parsed : rule.parser (Limits.scope { room := limit } (begin words).nesting)
      (begin words).words = .ok (phrase, []) := read
  exact rule.builds.on_of_ok (closed_begin words) parsed

theorem Consumes.exists_phrase (consumes : rule.Consumes limit words id tree) :
    ∃ phrase : Phrase rule.form,
      rule.step (Grammar.rules (words.length + 1)) { room := limit } words = .ok (phrase, []) ∧
        id = (phrase.layout.run 1).1 ∧ tree = Tree.new.attachAll (phrase.layout.run 1).2 := by
  have ran : rule.builder.on { room := limit } (begin words) =
      (.ok id, { words := [], nesting := 0, tree }) := consumes
  rcases answer : rule.parser (Limits.scope { room := limit } (begin words).nesting)
    (begin words).words with fault | ⟨phrase, rest⟩
  · obtain ⟨_, _, -, refused⟩ := rule.builds.on_of_error (closed_begin words) answer
    rw [refused] at ran
    cases ran
  · rw [rule.builds.on_of_ok (closed_begin words) answer] at ran
    cases ran
    exact ⟨phrase, answer, rfl, rfl⟩

/-- What a rule consumes by itself it reads in the same way with more levels of rules and with more
room. -/
theorem Consumes.exists_deeper (consumes : rule.Consumes limit words id tree) :
    ∃ phrase : Phrase rule.form, words.Balanced ∧
      (∀ depth extra, words.length < depth →
        rule.step (Grammar.rules depth) { room := limit + extra } words = .ok (phrase, [])) ∧
        id = (phrase.layout.run 1).1 ∧ tree = Tree.new.attachAll (phrase.layout.run 1).2 := by
  obtain ⟨phrase, read, sameId, sameTree⟩ := consumes.exists_phrase
  refine ⟨phrase, rule.balanced rfl read, ?_, sameId, sameTree⟩
  intro depth extra deeper
  exact rule.step_deeper deeper extra read

theorem Consumes.exists_column (consumes : Rule.column.Consumes limit words id tree) :
    ∃ column : Column, words.Balanced ∧
      (∀ depth extra, words.length < depth →
        Grammar.column (Grammar.rules depth) { room := limit + extra } words =
          .ok (column, [])) ∧
        id = (column.layout.run 1).1 ∧ tree = Tree.new.attachAll (column.layout.run 1).2 :=
  consumes.exists_deeper

theorem Consumes.exists_condition (consumes : Rule.condition.Consumes limit words id tree) :
    ∃ condition : Condition, words.Balanced ∧
      (∀ depth extra, words.length < depth →
        Grammar.condition (Grammar.rules depth) { room := limit + extra } words =
          .ok (condition, [])) ∧
        id = (condition.layout.run 1).1 ∧ tree = Tree.new.attachAll (condition.layout.run 1).2 :=
  consumes.exists_deeper

theorem Consumes.exists_statement (consumes : Rule.statement.Consumes limit words id tree) :
    ∃ statement : Statement, words.Balanced ∧
      (∀ depth extra, words.length < depth →
        Grammar.statement (Grammar.rules depth) { room := limit + extra } words =
          .ok (statement, [])) ∧
        id = (statement.layout.run 1).1 ∧ tree = Tree.new.attachAll (statement.layout.run 1).2 :=
  consumes.exists_deeper

end Rule

/-- The tree of a phrase under construction is sound. -/
theorem Phrase.sound_attachAll {form : Form} (phrase : Phrase form) :
    (Tree.new.attachAll (phrase.layout.run 1).2).Sound :=
  ((phrase.yields.sprout Tree.new.size).bears .new).sound

/-- A phrase whose nodes are among those of another one is carried by its tree. -/
theorem Phrase.carries {form outerForm : Form} (phrase : Phrase form) (outer : Phrase outerForm)
    (before behind : List Node)
    (parts : (outer.layout.run 1).2 =
      before ++ (phrase.layout.run 1).2.map (Node.shift before.length) ++ behind) :
    (Tree.new.attachAll (outer.layout.run 1).2).Carries
      (Tree.new.attachAll (phrase.layout.run 1).2) before.length := by
  have sound := outer.sound_attachAll
  rw [parts] at sound ⊢
  exact Tree.carries_attachAll phrase.sound_attachAll sound

/-- A phrase whose nodes are the first ones of another phrase has the same numbers in both. -/
theorem Phrase.carries_of_begins {form outerForm : Form} (phrase : Phrase form)
    (outer : Phrase outerForm) (begins : (phrase.layout.run 1).2 <+: (outer.layout.run 1).2) :
    (Tree.new.attachAll (outer.layout.run 1).2).Carries
      (Tree.new.attachAll (phrase.layout.run 1).2) 0 := by
  obtain ⟨behind, parts⟩ := begins
  apply phrase.carries outer [] behind
  rw [← parts, List.length_nil, Node.shift_zero, List.map_id, List.nil_append]

/-- The tree of a phrase around another one: what is added before, the tree of the inner phrase
grafted onto that, and what is added behind. -/
theorem Phrase.tree_around {form outerForm : Form} (phrase : Phrase form)
    (outer : Phrase outerForm) {before behind nodes : List Node}
    (parts : nodes =
      before ++ (phrase.layout.run 1).2.map (Node.shift before.length) ++ behind)
    (layout : outer.layout.run 1 = (⟨nodes.length⟩, nodes)) :
    let inner := Tree.new.attachAll (phrase.layout.run 1).2
    let whole := ((Tree.new.attachAll before).graft inner).attachAll behind
    (outer.layout.run 1).1 = ⟨whole.size - 1⟩ ∧
      Tree.new.attachAll (outer.layout.run 1).2 = whole ∧
      whole.Carries inner before.length := by
  intro inner whole
  have isWhole : Tree.new.attachAll nodes = whole := by
    rw [parts, Tree.attachAll_append, ← Tree.graft_attachAll]
  have last : nodes.length = whole.size - 1 := by
    rw [← isWhole, Tree.size_attachAll]
    exact (Nat.add_sub_cancel_left ..).symm
  have carries := phrase.carries outer before behind (by rw [layout, parts])
  rw [layout, isWhole] at carries
  rw [layout, isWhole, last]
  exact ⟨rfl, rfl, carries⟩

end SelectTree
