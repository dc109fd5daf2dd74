/-
Module: SelectTree.Proofs.Build.Chain
Purpose: the parts of a chain are read from left to right, and the node of the chain names them in
  this order.
Main exports: Builder.on_bind_ok_iff, Builder.ReadsEach, Builder.ReadsChain,
  Build.Rules.ReadInOrder, Build.rules_readInOrder
-/
import SelectTree.Build
import SelectTree.Proofs.Build.Apply
import SelectTree.Proofs.Grammar.Bracket

namespace SelectTree

namespace Builder

/-- Items that are read one behind the other, each from the workspace that the one before it
leaves.  Behind the last of them no item is found, or none is looked for. -/
inductive ReadsEach (item : Builder (Option NodeId)) (limits : Limits) :
    Workspace → List NodeId → Workspace → Prop where
  | nil (workspace : Workspace) : ReadsEach item limits workspace [] workspace
  | stop {before behind : Workspace} :
      item.on limits before = (.ok none, behind) → ReadsEach item limits before [] behind
  | cons {before middle behind : Workspace} {first : NodeId} {others : List NodeId} :
      item.on limits before = (.ok (some first), middle) →
      ReadsEach item limits middle others behind →
      ReadsEach item limits before (first :: others) behind

/-- The beginning of a chain is read, then what is chained to it.  If something is, then the node
of the chain is added last and names everything in the order in which it was read. -/
def ReadsChain (first : Builder NodeId) (item : Builder (Option NodeId))
    (hold : Slot → List Slot → Node) (limits : Limits) (before : Workspace) (id : NodeId)
    (behind : Workspace) : Prop :=
  ∃ left items afterLeft afterItems,
    first.on limits before = (.ok left, afterLeft) ∧
    ReadsEach item limits afterLeft items afterItems ∧
    if items = [] then id = left ∧ behind = afterItems
    else id = afterItems.tree.nextId ∧
      behind = { afterItems with
        tree := afterItems.tree.attach (hold (some left) (slots items)) }

section

variable {α β : Type} {limits : Limits} {before behind : Workspace}

/-- Two builders give a value together exactly if the second one does where the first one ends. -/
theorem on_bind_ok_iff {first : Builder α} {next : α → Builder β} {result : β} :
    (first >>= next).on limits before = (.ok result, behind) ↔
      ∃ value middle, first.on limits before = (.ok value, middle) ∧
        (next value).on limits middle = (.ok result, behind) := by
  rw [on_bind]
  rcases first.on limits before with ⟨fault | value, middle⟩
  · simp
  · constructor
    · intro ran
      exact ⟨value, middle, rfl, ran⟩
    · rintro ⟨_, _, ⟨⟩, ran⟩
      exact ran

/-- Reading moves on over the words and leaves tree and nesting as they are. -/
theorem exists_of_on_read {parser : Parser α} {value : α}
    (ran : (read parser).on limits before = (.ok value, behind)) :
    ∃ rest, parser (limits.scope before.nesting) before.words = .ok (value, rest) ∧
      behind = { before with words := rest } := by
  rw [on_read] at ran
  rcases outcome : parser (limits.scope before.nesting) before.words with _ | ⟨found, rest⟩ <;>
    rw [outcome] at ran <;> cases ran
  exact ⟨rest, rfl, rfl⟩

/-- A word of the kind is eaten, and nothing is if another one or none is there. -/
theorem on_eat_cases {kind : TokenKind} {ate : Bool}
    (ran : (read (Parser.eat kind)).on limits before = (.ok ate, behind)) :
    (ate = false ∧ (∀ word ∈ before.words.head?, word.kind ≠ kind) ∧ behind = before) ∨
      ∃ word rest, ate = true ∧ before.words = word :: rest ∧ word.kind = kind ∧
        behind = { before with words := rest } := by
  obtain ⟨rest, eaten, rfl⟩ := exists_of_on_read ran
  rw [Parser.eat_apply] at eaten
  split at eaten
  · next isKind =>
      cases eaten
      obtain ⟨word, isFirst, same⟩ := (Option.any_eq_true _ _).1 isKind
      obtain ⟨rest, words⟩ := List.head?_eq_some_iff.1 isFirst
      refine .inr ⟨word, rest, rfl, words, beq_iff_eq.1 same, ?_⟩
      rw [words, List.drop_one, List.tail_cons]
  · next other =>
      cases eaten
      refine .inl ⟨rfl, fun word isFirst same => other ?_, rfl⟩
      rw [Option.mem_def.1 isFirst, Option.any_some, same, beq_self_eq_true]

/-- What brackets hold is built on their contents with one level less, and the words go on behind
them. -/
theorem exists_of_on_bracketed {body : Word → Builder α} {value : α}
    (ran : (bracketed body).on limits before = (.ok value, behind)) :
    ∃ group room last, Parser.openGroup before.words = .ok group ∧
      Parser.enter limits.room group.contents = .ok room ∧
      (body group.opening).on { limits with room } { before with words := group.contents } =
        (.ok value, last) ∧
      behind = { last with words := group.behind } := by
  rw [on_bracketed] at ran
  rcases opened : Parser.openGroup before.words with _ | group <;> simp only [opened] at ran
  · cases ran
  rcases entered : Parser.enter limits.room group.contents with _ | room <;>
    simp only [entered] at ran
  · cases ran
  rcases inside : (body group.opening).on { limits with room }
    { before with words := group.contents } with ⟨answer, last⟩
  rw [inside] at ran
  cases ran
  exact ⟨group, room, last, rfl, entered, inside, rfl⟩

/-- By induction on the number of items that are looked for at most. -/
theorem readsEach_of_manyUpTo {item : Builder (Option NodeId)} {count : Nat}
    {items : List NodeId}
    (ran : (manyUpTo item count).on limits before = (.ok items, behind)) :
    ReadsEach item limits before items behind := by
  induction count generalizing before items with
  | zero =>
      cases ran
      exact .nil _
  | succ count ih =>
      obtain ⟨found, middle, ranItem, ranRest⟩ := on_bind_ok_iff.1 ran
      cases found with
      | none =>
          cases ranRest
          exact .stop ranItem
      | some first =>
          obtain ⟨others, afterOthers, ranOthers, ended⟩ := on_bind_ok_iff.1 ranRest
          cases ended
          exact .cons ranItem (ih ranOthers)

theorem readsEach_of_many {item : Builder (Option NodeId)} {items : List NodeId}
    (ran : (many item).on limits before = (.ok items, behind)) :
    ReadsEach item limits before items behind := by
  obtain ⟨words, middle, looked, ranItems⟩ := on_bind_ok_iff.1 ran
  cases looked
  exact readsEach_of_manyUpTo ranItems

theorem readsChain_of_many {first : Builder NodeId} {item : Builder (Option NodeId)}
    {hold : Slot → List Slot → Node} {id : NodeId}
    (ran : (do
      let left ← first
      let items ← many item
      if items.isEmpty then pure left
      else add (hold (some left) (slots items)) : Builder NodeId).on limits before =
        (.ok id, behind)) :
    ReadsChain first item hold limits before id behind := by
  obtain ⟨left, afterLeft, ranLeft, ranRest⟩ := on_bind_ok_iff.1 ran
  obtain ⟨items, afterItems, ranItems, ended⟩ := on_bind_ok_iff.1 ranRest
  refine ⟨left, items, afterLeft, afterItems, ranLeft, readsEach_of_many ranItems, ?_⟩
  cases items with
  | nil =>
      cases ended
      exact ⟨rfl, rfl⟩
  | cons item items =>
      cases ended
      exact ⟨rfl, rfl⟩

end

end Builder

namespace Build

open Builder

/-- The rules for columns, conditions and relations, with these rules inside, read their chains in
order. -/
structure Rules.ReadInOrder (rules : Rules) : Prop where
  /-- A window is read behind the run that it is put on. -/
  column : ∀ limits before id behind, (Build.column rules).on limits before = (.ok id, behind) →
    ∃ run afterRun,
      ReadsChain (Build.operand rules) (Build.operation rules)
        (fun left operations => .column (.arithmetic left operations)) limits before run afterRun ∧
      (id = run ∧ behind = afterRun ∨
        ∃ window afterWindow,
          (Build.window rules).on limits afterRun = (.ok window, afterWindow) ∧
          id = afterWindow.tree.nextId ∧
          behind = { afterWindow with
            tree := afterWindow.tree.attach (.column (.windowed (some run) (some window))) })
  condition : ∀ limits before id behind,
    (Build.condition rules).on limits before = (.ok id, behind) →
      ReadsChain (Build.term rules) (Build.link rules)
        (fun left links => .condition (.chain left links)) limits before id behind
  relation : ∀ limits before id behind,
    (Build.relation rules).on limits before = (.ok id, behind) →
      ReadsChain (Build.source rules) (Build.join rules)
        (fun left joins => .relation (.joinChain left joins)) limits before id behind

/-- A column is a run and what is read behind it. -/
theorem column_eq (rules : Rules) :
    Build.column rules = (do
      let run ← (do
        let left ← Build.operand rules
        let operations ← many (Build.operation rules)
        if operations.isEmpty then pure left
        else add (.column (.arithmetic (some left) (slots operations))) : Builder NodeId)
      if ← read (Parser.checkKeyword .OVER) then
        let window ← Build.window rules
        add (.column (.windowed (some run) (some window)))
      else return run) := by
  simp only [Build.column, addRun, bind_assoc]

theorem rules_readInOrder (rules : Rules) : rules.ReadInOrder where
  column := by
    intro limits before id behind ran
    rw [column_eq] at ran
    obtain ⟨run, afterRun, ranRun, ranWindow⟩ := on_bind_ok_iff.1 ran
    refine ⟨run, afterRun, readsChain_of_many ranRun, ?_⟩
    obtain ⟨isWindow, looked, ranLook, ended⟩ := on_bind_ok_iff.1 ranWindow
    cases ranLook
    split at ended
    · obtain ⟨window, afterWindow, ranRule, added⟩ := on_bind_ok_iff.1 ended
      cases added
      exact .inr ⟨window, afterWindow, ranRule, rfl, rfl⟩
    · cases ended
      exact .inl ⟨rfl, rfl⟩
  condition := fun _ _ _ _ ran => readsChain_of_many ran
  relation := fun _ _ _ _ ran => readsChain_of_many ran

end Build

end SelectTree
