/-
Module: SelectTree.Proofs.Build.BracketedTerm
Purpose: a bracket whose contents begin with a term is a condition or an error, never a column.
Main exports: Grammar.isVacant_of_term, Grammar.kind_of_bracketedCondition,
  Build.on_term_at_bracket, Build.on_bracketedCondition_of_group, Build.term_eq_bracketedCondition

A bracket is read again as a column if the reading as a condition says that the words are none.
Behind a first term nothing says so: the links of a condition are settled, and words that are left
over are a plain error.
-/
import SelectTree.Proofs.Build.BareColumn

namespace SelectTree

namespace Grammar

open SelectTree.Parser

variable {scope : Scope} {words : Words}

/-- Neither nothing nor a statement is an operand. -/
theorem operand_of_isVacant (rules : Rules) (noHook : scope.hooks.operand = none)
    (vacant : isVacant words = true) : ∃ fault, operand rules scope words = .error fault := by
  rw [operand_eq_plainOperand noHook]
  rcases words with _ | ⟨⟨kind, text, glued, index⟩, rest⟩
  · exact ⟨_, rfl⟩
  · have starts : kind = .keyword .SELECT ∨ kind = .keyword .WITH := by
      simpa [isVacant] using vacant
    rcases starts with rfl | rfl <;> exact ⟨_, rfl⟩

/-- A term is not vacant. -/
theorem isVacant_of_term {rules : Rules} {found : Term × Words} (hookless : scope.hooks = {})
    (read : term rules scope words = .ok found) : isVacant words = false := by
  have noTerm : scope.hooks.term = none := by rw [hookless]
  have noOperand : scope.hooks.operand = none := by rw [hookless]
  rw [← Bool.not_eq_true]
  intro vacant
  obtain ⟨fault, refused⟩ := operand_of_isVacant rules noOperand vacant
  have other {kind : TokenKind} (noSelect : kind ≠ .keyword .SELECT)
      (noWith : kind ≠ .keyword .WITH) : words.head?.any (·.kind == kind) = false := by
    cases words with
    | nil => rfl
    | cons word rest =>
        have starts : word.kind = .keyword .SELECT ∨ word.kind = .keyword .WITH := by
          simpa [isVacant] using vacant
        rcases starts with isKind | isKind
        · simpa [isKind] using noSelect.symm
        · simpa [isKind] using noWith.symm
  rw [term_eq_predicate noTerm (other (by decide) (by decide)) (other (by decide) (by decide))
    (other (by decide) (by decide))] at read
  obtain ⟨left, behind, readColumn, -⟩ := bind_ok_iff.1 read
  obtain ⟨first, rest, readOperand, -⟩ := bind_ok_iff.1 readColumn
  rw [refused] at readOperand
  cases readOperand

/-- Where the contents of a bracket begin with a term, there is no doubt that a condition is
meant. -/
theorem kind_of_bracketedCondition {depth room : Nat} {group : Words.Group} {fault : Fault}
    {found : Term × Words} (hookless : scope.hooks = {}) (opened : openGroup words = .ok group)
    (entered : enter scope.room group.contents = .ok room)
    (read : term (rules depth) { scope with room } group.contents = .ok found)
    (refused : bracketedCondition (rules (depth + 1)) scope words = .error fault) :
    fault.kind ≠ .notACondition := by
  intro kind
  obtain ⟨other, otherRoom, openedAgain, enteredAgain, reason⟩ :=
    bracketedCondition_bare_iff.1 ⟨refused, kind⟩
  rw [opened] at openedAgain
  cases openedAgain
  rw [entered] at enteredAgain
  cases enteredAgain
  have noHooks : ({ scope with room } : Scope).hooks = {} := hookless
  rcases reason with ⟨vacant, -⟩ | ⟨-, bare⟩
  · rw [isVacant_of_term noHooks read] at vacant
    cases vacant
  · -- Nothing is said of the column that the contents begin with, so they begin with no term.
    have described := (term_bare_iff noHooks).2 ((condition_bare_iff noHooks).1 bare)
    rw [read] at described
    cases described.1

end Grammar

/-- What a builder reads, the parser reads. -/
theorem Builds.exists_of_ok {form : Form} {builder : Builder NodeId} {parser : Parser (Phrase form)}
    (builds : Builds builder parser Phrase.layout) {limits : Limits} {workspace : Workspace}
    (closed : workspace.tree.Closed) {id : NodeId}
    (read : (builder.on limits workspace).1 = .ok id) :
    ∃ found, parser (limits.scope workspace.nesting) workspace.words = .ok found := by
  cases answer : parser (limits.scope workspace.nesting) workspace.words with
  | ok found => exact ⟨found, rfl⟩
  | error fault =>
      rw [← builds.refused_iff closed, read] at answer
      cases answer

namespace Build

section Bracket

variable {room : Nat} {workspace : Workspace}

/-- A bracket is tried as a condition, and read as a column if that is given up. -/
theorem on_term_at_bracket (rules : Rules)
    (atBracket : workspace.words.head?.map Word.kind = some .leftParen) :
    (term rules).on { room } workspace =
      (do
        match ← Builder.attempt (bracketedCondition rules) with
        | some found => return found
        | none => predicate rules : Builder NodeId).on { room } workspace := by
  obtain ⟨words, nesting, tree⟩ := workspace
  obtain ⟨⟨kind, text, glued, index⟩, isHead, opens⟩ := Option.map_eq_some_iff.1 atBracket
  obtain ⟨rest, rfl⟩ := List.head?_eq_some_iff.1 isHead
  obtain rfl : kind = .leftParen := opens
  rfl

/-- If the bracket is not refused as no condition, then whatever becomes of it becomes of the
term. -/
theorem on_term_of_settled {rules : Rules}
    (atBracket : workspace.words.head?.map Word.kind = some .leftParen)
    (settled : ∀ fault, ((bracketedCondition rules).on { room } workspace).1 = .error fault →
      fault.kind ≠ .notACondition) :
    (term rules).on { room } workspace = (bracketedCondition rules).on { room } workspace := by
  rw [on_term_at_bracket rules atBracket, Builder.on_bind, Builder.on_attempt]
  rcases outcome : (bracketedCondition rules).on { room } workspace with ⟨fault | id, behind⟩
  · have kind : fault.kind ≠ .notACondition := settled fault (by rw [outcome])
    simp only [if_neg kind]
  · rfl

/-- A bracket that is not vacant is refused for what its contents are refused for. -/
theorem on_bracketedCondition_of_group {rules : Rules} {group : Words.Group} {inner : Nat}
    {fault : Fault} (opened : Parser.openGroup workspace.words = .ok group)
    (entered : Parser.enter room group.contents = .ok inner)
    (filled : Grammar.isVacant group.contents = false) :
    ((bracketedCondition rules).on { room } workspace).1 = .error fault ↔
      ((Builder.wholly rules.condition).on { room := inner }
        { workspace with words := group.contents }).1 = .error fault := by
  obtain ⟨starts, checked, isVacant⟩ := Grammar.exists_startsStatement_isVacant
    (Limits.scope { room := inner } workspace.nesting) group.contents
  have look : Parser.remaining (Limits.scope { room := inner } workspace.nesting) group.contents =
      .ok (group.contents, group.contents) := rfl
  rw [filled] at isVacant
  rw [bracketedCondition, Builder.on_bracketed, opened]
  simp only [entered, Builder.on_bind, Builder.on_read, look, checked, isVacant,
    Bool.false_eq_true, if_false]
  rcases (Builder.wholly rules.condition).on { room := inner }
    { workspace with words := group.contents } with ⟨other | id, behind⟩
  · rfl
  · simp [Builder.on_add]

/-- Any number of levels of rules that is enough for the words reads the same term. -/
theorem on_deeply_term {depth : Nat} (enough : workspace.words.length < depth) :
    (deeply term).on { room } workspace = (term (rules depth)).on { room } workspace := by
  have levels := ((Routine.single .term).progress room workspace).1 .exhausted depth enough
  rw [iterate_around] at levels
  rw [on_deeply]
  exact levels.symm

/-- Reading all words as a condition takes no more levels of rules, either. -/
theorem on_wholly_condition {depth : Nat} (enough : workspace.words.length < depth) :
    (Builder.wholly Rule.condition.builder).on { room } workspace =
      (Builder.wholly (condition (rules depth))).on { room } workspace := by
  have levels : (condition (rules depth)).on { room } workspace =
      Rule.condition.builder.on { room } workspace := on_buildStep .condition enough
  rw [Builder.wholly, Builder.wholly, Builder.on_bind, Builder.on_bind, ← levels]

end Bracket

/-- Whatever the words, the room, the level of nesting and the tree are: if a term can be read at
the beginning of a bracket, then the term that begins with the bracket is the bracketed condition,
the same node or the same error, and the bracket is not read again as a column.  The error is that
of reading all contents of the bracket as a condition, and it never says that they are none. -/
theorem term_eq_bracketedCondition {room inner : Nat} {workspace : Workspace}
    (made : workspace.tree.Made) {group : Words.Group} {id : NodeId}
    (opened : Parser.openGroup workspace.words = .ok group)
    (entered : Parser.enter room group.contents = .ok inner)
    (read : ((deeply term).on { room := inner } { workspace with words := group.contents }).1 =
      .ok id) :
    (deeply term).on { room } workspace = (deeply bracketedCondition).on { room } workspace ∧
      ∀ fault, ((deeply term).on { room } workspace).1 = .error fault →
        fault.kind ≠ .notACondition ∧
          ((Builder.wholly Rule.condition.builder).on { room := inner }
            { workspace with words := group.contents }).1 = .error fault := by
  have closed := made.closed
  have isGroup := Parser.group?_of_openGroup opened
  have fewer := (Words.shrinks_of_group? isGroup).1
  have atBracket : workspace.words.head?.map Word.kind = some .leftParen := by
    obtain ⟨opens, -, _, -, split⟩ := Words.exists_of_group? isGroup
    simp [split, opens]
  -- As many levels as there are words serve for the contents, and one more for the bracket.
  let depth := workspace.words.length
  let inside : Workspace := { workspace with words := group.contents }
  have closedInside : inside.tree.Closed := closed
  rw [on_deeply_term fewer] at read
  obtain ⟨found, readTerm⟩ := (builds_term (rules_follow depth)).exists_of_ok closedInside read
  have filled := Grammar.isVacant_of_term rfl readTerm
  have settled : ∀ fault,
      ((bracketedCondition (rules (depth + 1))).on { room } workspace).1 = .error fault →
      fault.kind ≠ .notACondition := by
    intro fault refused
    rw [(builds_bracketedCondition (rules_follow (depth + 1))).refused_iff closed] at refused
    exact Grammar.kind_of_bracketedCondition rfl opened entered readTerm refused
  have same := on_term_of_settled atBracket settled
  rw [on_deeply, on_deeply]
  refine ⟨same, fun fault refused => ?_⟩
  rw [same] at refused
  refine ⟨settled fault refused, ?_⟩
  rw [on_wholly_condition fewer]
  exact (on_bracketedCondition_of_group opened entered filled).1 refused

/-- The words of `((a) = 1 AND b OR c = 2)`. -/
def laterColumn : Workspace :=
  { words := (TokenStream.ofString "((a) = 1 AND b OR c = 2)").words, nesting := 0, tree := .new }

/-- All of them as a bracket. -/
def laterColumnGroup : Words.Group :=
  { opening := laterColumn.words.headD default
    contents := laterColumn.words.tail.dropLast
    behind := [] }

/-- The first term is a comparison of a bracketed column.  Nothing is said of the column behind
`AND`, and that is the error of the whole bracket. -/
theorem term_eq_bracketedCondition_laterColumn :
    laterColumn.tree.Made ∧ Parser.openGroup laterColumn.words = .ok laterColumnGroup ∧
      Parser.enter 128 laterColumnGroup.contents = .ok 127 ∧
      ((deeply term).on { room := 127 }
        { laterColumn with words := laterColumnGroup.contents }).1 = .ok ⟨4⟩ ∧
      (deeply term).on { room := 128 } laterColumn =
        (deeply bracketedCondition).on { room := 128 } laterColumn ∧
      ((deeply term).on { room := 128 } laterColumn).1 =
        .error (.expected .syntactic "a comparison" (laterColumnGroup.contents.drop 7)) ∧
      ((Builder.wholly Rule.condition.builder).on { room := 127 }
        { laterColumn with words := laterColumnGroup.contents }).1 =
        .error (.expected .syntactic "a comparison" (laterColumnGroup.contents.drop 7)) := by
  have opened : Parser.openGroup laterColumn.words = .ok laterColumnGroup := by decide +kernel
  have entered : Parser.enter 128 laterColumnGroup.contents = .ok 127 := rfl
  have read : ((deeply term).on { room := 127 }
      { laterColumn with words := laterColumnGroup.contents }).1 = .ok ⟨4⟩ := by
    decide +kernel
  have refused : ((deeply term).on { room := 128 } laterColumn).1 =
      .error (.expected .syntactic "a comparison" (laterColumnGroup.contents.drop 7)) := by
    decide +kernel
  obtain ⟨same, reported⟩ := term_eq_bracketedCondition .new opened entered read
  exact ⟨.new, opened, entered, read, same, refused, (reported _ refused).2⟩

end Build

end SelectTree
