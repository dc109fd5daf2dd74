/-
Module: SelectTree.Proofs.Build.Apply
Purpose: what each way of combining parsers makes of words, and each way of combining builders of
  a workspace.
Main exports: Parser.bind_apply, Parser.bracketed_apply, Builder.on_bind, Builder.on_bracketed,
  Builder.on_attempt
-/
import SelectTree.Build

namespace SelectTree

namespace Parser

variable {α β : Type} (scope : Scope) (words : Words)

/-- What follows goes on with the words that are left. -/
theorem bind_apply (first : Parser α) (next : α → Parser β) :
    (first >>= next) scope words =
      match first scope words with
      | .ok (value, rest) => next value scope rest
      | .error fault => .error fault := by
  change Except.bind (first scope words) (fun result => next result.1 scope result.2) = _
  rcases first scope words with _ | ⟨_, _⟩ <;> rfl

/-- What a parser leaves of a range is dropped. -/
theorem within_apply (range : Words) (body : Parser α) :
    Parser.within range body scope words =
      match body scope range with
      | .ok (value, _) => .ok (value, words)
      | .error fault => .error fault := by
  change Except.bind (body scope range) (fun result => .ok (result.1, words)) = _
  rcases body scope range with _ | ⟨_, _⟩ <;> rfl

/-- Settling changes the fault and nothing else. -/
theorem committed_apply (body : Parser α) :
    Parser.committed body scope words =
      match body scope words with
      | .ok result => .ok result
      | .error fault => .error fault.committed := rfl

/-- Only words that are no condition are given back; any other fault is passed on. -/
theorem attempt_apply (body : Parser α) :
    Parser.attempt body scope words =
      match body scope words with
      | .ok (value, rest) => .ok (some value, rest)
      | .error fault => if fault.kind = .notACondition then .ok (none, words) else .error fault :=
  rfl

/-- The limit is checked before any word is read. -/
theorem nested_apply (body : Parser α) :
    Parser.nested body scope words =
      match Parser.checkNesting scope.room (scope.nesting + 1) words with
      | .ok _ => body { scope with nesting := scope.nesting + 1 } words
      | .error fault => .error fault := by
  change Except.bind (Parser.checkNesting scope.room (scope.nesting + 1) words)
    (fun _ => body { scope with nesting := scope.nesting + 1 } words) = _
  rcases Parser.checkNesting scope.room (scope.nesting + 1) words with _ | _ <;> rfl

/-- A bracket without partner is complained of before the limit, and the limit before the contents.
-/
theorem bracketed_apply (body : Word → Parser α) :
    Parser.bracketed body scope words =
      match Parser.openGroup words with
      | .error fault => .error fault
      | .ok group =>
          match Parser.enter scope.room group.contents with
          | .error fault => .error fault
          | .ok room =>
              match body group.opening { scope with room } group.contents with
              | .ok (value, _) => .ok (value, group.behind)
              | .error fault => .error fault := by
  change Except.bind (Parser.openGroup words) (fun group =>
    Except.bind (Parser.enter scope.room group.contents) (fun room =>
      Except.bind (body group.opening { scope with room } group.contents) (fun result =>
        .ok (result.1, group.behind)))) = _
  rcases Parser.openGroup words with _ | group
  · rfl
  · change Except.bind (Parser.enter scope.room group.contents) _ = _
    simp only
    rcases Parser.enter scope.room group.contents with _ | room
    · rfl
    · change Except.bind (body group.opening { scope with room } group.contents) _ = _
      simp only
      rcases body group.opening { scope with room } group.contents with _ | ⟨_, _⟩ <;> rfl

end Parser

namespace Builder

variable {α β : Type} (limits : Limits) (workspace : Workspace)

/-- What the first builder did stays done if it fails. -/
theorem on_bind (first : Builder α) (next : α → Builder β) :
    (first >>= next).on limits workspace =
      match first.on limits workspace with
      | (.ok value, behind) => (next value).on limits behind
      | (.error fault, behind) => (.error fault, behind) := by
  simp only [on]
  change (match first limits workspace with
    | (answer, behind) =>
        (ExceptT.bindCont (m := StateM Workspace) (fun value => next value limits) answer)
          behind) = _
  rcases first limits workspace with ⟨_ | _, behind⟩ <;> rfl

/-- A parser that fails leaves the workspace as it is. -/
theorem on_read (parser : Parser α) :
    (Builder.read parser).on limits workspace =
      match parser (limits.scope workspace.nesting) workspace.words with
      | .ok (value, words) => (.ok value, { workspace with words })
      | .error fault => (.error fault, workspace) := rfl

/-- Adding reads no words and never fails. -/
theorem on_add (node : Node) :
    (Builder.add node).on limits workspace =
      (.ok workspace.tree.nextId, { workspace with tree := workspace.tree.attach node }) := rfl

/-- The words come back if the body fails, too. -/
theorem on_within (range : Words) (body : Builder α) :
    (Builder.within range body).on limits workspace =
      match body.on limits { workspace with words := range } with
      | (answer, behind) => (answer, { behind with words := workspace.words }) := rfl

/-- Settling changes the fault and nothing that is done. -/
theorem on_committed (body : Builder α) :
    (Builder.committed body).on limits workspace =
      match body.on limits workspace with
      | (.ok value, behind) => (.ok value, behind)
      | (.error fault, behind) => (.error fault.committed, behind) := rfl

/-- Words and nodes come back if the words are no condition.  The nesting does so by itself. -/
theorem on_attempt (body : Builder α) :
    (Builder.attempt body).on limits workspace =
      match body.on limits workspace with
      | (.ok value, behind) => (.ok (some value), behind)
      | (.error fault, behind) =>
          if fault.kind = .notACondition then
            (.ok none, { behind with
              words := workspace.words
              tree := behind.tree.rollback workspace.tree.checkpoint })
          else (.error fault, behind) := rfl

/-- The level is given back if the body fails, too. -/
theorem on_nested (body : Builder α) :
    (Builder.nested body).on limits workspace =
      match Parser.checkNesting limits.room (workspace.nesting + 1) workspace.words with
      | .error fault => (.error fault, workspace)
      | .ok () =>
          match body.on limits { workspace with nesting := workspace.nesting + 1 } with
          | (answer, behind) => (answer, { behind with nesting := behind.nesting - 1 }) := rfl

/-- Once the brackets are found their words are consumed, whatever comes of them. -/
theorem on_bracketed (body : Word → Builder α) :
    (Builder.bracketed body).on limits workspace =
      match Parser.openGroup workspace.words with
      | .error fault => (.error fault, workspace)
      | .ok group =>
          match Parser.enter limits.room group.contents with
          | .error fault => (.error fault, { workspace with words := group.behind })
          | .ok room =>
              match (body group.opening).on { limits with room }
                { workspace with words := group.contents } with
              | (answer, behind) => (answer, { behind with words := group.behind }) := rfl

end Builder

end SelectTree
