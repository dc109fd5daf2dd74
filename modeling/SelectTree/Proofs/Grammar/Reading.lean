/-
Module: SelectTree.Proofs.Grammar.Reading
Purpose: what is read in a bracket, given what its contents are read as by themselves.
Main exports: Parser.bracketed_ok, Grammar.condition_in_bracket, Grammar.column_in_bracket,
  Grammar.comparison_of_bracket
-/
import SelectTree.Proofs.Grammar.Deepen

namespace SelectTree

/-- A statement begins with a word of this kind, or may stand in brackets behind it. -/
inductive TokenKind.AnnouncesStatement : TokenKind → Prop where
  | select : AnnouncesStatement (.keyword .SELECT)
  | with : AnnouncesStatement (.keyword .WITH)
  | any : AnnouncesStatement (.keyword .ANY)
  | some : AnnouncesStatement (.keyword .SOME)
  | all : AnnouncesStatement (.keyword .ALL)

namespace Parser

variable {α : Type} {scope : Scope} {words : Words}

/-- A bracket around words takes one level, and inside of it the words are read as they are by
themselves. -/
theorem bracketed_ok {body : Word → Parser α} {opening closing : Word} {inner behind left : Words}
    {value : α} (opens : opening.kind = .leftParen) (balanced : inner.Balanced)
    (closes : closing.kind = .rightParen) (read : body opening scope inner = .ok (value, left)) :
    bracketed body (scope.widen 1) (opening :: inner ++ closing :: behind) =
      .ok (value, behind) := by
  have opened : openGroup (opening :: inner ++ closing :: behind) =
      .ok { opening, contents := inner, behind } := by
    have group := Words.group?_bracket behind opens balanced closes
    rw [List.cons_append] at group
    rw [List.cons_append, openGroup, if_pos opens, group]
  have entered : enter (scope.widen 1).room inner = .ok scope.room := rfl
  have inside : body opening { scope.widen 1 with room := scope.room } inner = .ok (value, left) :=
    read
  simp only [bracketed_apply, opened, entered, inside]

/-- The words begin neither with a statement nor with what may stand in front of one. -/
def Unannounced (words : Words) : Prop :=
  ∃ first rest, words = first :: rest ∧ ¬ first.kind.AnnouncesStatement

theorem Unannounced.head?_ne (plain : Unannounced words) {kind : TokenKind}
    (announces : kind.AnnouncesStatement) : words.head?.any (·.kind == kind) = false := by
  obtain ⟨first, rest, rfl, other⟩ := plain
  have differs : first.kind ≠ kind := fun same => other (same ▸ announces)
  simpa using differs

theorem Unannounced.startsStatement (plain : Unannounced words) :
    startsStatement scope words = .ok (false, words) := by
  change Except.ok (words.head?.any (·.kind == .keyword .SELECT) ||
    words.head?.any (·.kind == .keyword .WITH), words) = _
  rw [plain.head?_ne .select, plain.head?_ne .with]
  rfl

theorem Unannounced.eatKeyword (plain : Unannounced words) {keyword : Keyword}
    (announces : TokenKind.AnnouncesStatement (.keyword keyword)) :
    eatKeyword keyword scope words = .ok (false, words) := by
  rw [Parser.eatKeyword, eat_apply, plain.head?_ne announces]
  rfl

theorem Unannounced.isEmpty (plain : Unannounced words) : words.isEmpty = false := by
  obtain ⟨first, rest, rfl, -⟩ := plain
  rfl

end Parser

namespace Grammar

open SelectTree.Parser

variable {rules : Rules} {scope : Scope} {words rest : Words}

/-! ### What columns and conditions do not begin with -/

/-- No operand begins with what announces a statement. -/
theorem operand_at_announcement (rules : Rules) {first : Word}
    (noHook : scope.hooks.operand = none) (announces : first.kind.AnnouncesStatement) :
    ∃ fault, operand rules scope (first :: rest) = .error fault := by
  rw [operand_eq_plainOperand noHook]
  obtain ⟨kind, text, glued, index⟩ := first
  cases announces <;> exact ⟨_, rfl⟩

theorem unannounced_of_column {found : Column} (noHook : scope.hooks.operand = none)
    (read : column rules scope words = .ok (found, rest)) : Unannounced words := by
  obtain ⟨left, behind, readOperand, -⟩ := bind_ok_iff.1 read
  cases words with
  | nil =>
      rw [operand_eq_plainOperand noHook] at readOperand
      cases readOperand
  | cons first others =>
      refine ⟨first, others, rfl, fun announces => ?_⟩
      obtain ⟨fault, refused⟩ := operand_at_announcement rules noHook announces
      rw [refused] at readOperand
      cases readOperand

/-- Behind what announces a statement there would have to be a column, and there is none. -/
theorem unannounced_of_term {found : Term} (noHooks : scope.hooks = {})
    (read : term rules scope words = .ok (found, rest)) : Unannounced words := by
  have noTerm : scope.hooks.term = none := by rw [noHooks]
  have noOperand : scope.hooks.operand = none := by rw [noHooks]
  cases words with
  | nil =>
      rw [term_eq_predicate noTerm rfl rfl rfl] at read
      obtain ⟨left, behind, readColumn, -⟩ := bind_ok_iff.1 read
      exact unannounced_of_column noOperand readColumn
  | cons first others =>
      refine ⟨first, others, rfl, fun announces => ?_⟩
      have asPredicate : predicate rules scope (first :: others) = .ok (found, rest) := by
        obtain ⟨kind, text, glued, index⟩ := first
        rwa [term_eq_predicate noTerm (by cases announces <;> rfl) (by cases announces <;> rfl)
          (by cases announces <;> rfl)] at read
      obtain ⟨left, behind, readColumn, -⟩ := bind_ok_iff.1 asPredicate
      obtain ⟨_, _, ⟨⟩, other⟩ := unannounced_of_column noOperand readColumn
      exact other announces

theorem unannounced_of_condition {found : Condition} (noHooks : scope.hooks = {})
    (read : condition rules scope words = .ok (found, rest)) : Unannounced words := by
  obtain ⟨left, behind, readTerm, -⟩ := bind_ok_iff.1 read
  exact unannounced_of_term noHooks readTerm

/-! ### Conditions and columns in brackets -/

section Bracket

variable {opening closing : Word} {inner behind : Words}

/-- A condition in brackets is one term. -/
theorem bracketedCondition_ok {found : Condition} (opens : opening.kind = .leftParen)
    (balanced : inner.Balanced) (closes : closing.kind = .rightParen) (plain : Unannounced inner)
    (read : rules.condition scope inner = .ok (found, [])) :
    bracketedCondition rules (scope.widen 1) (opening :: inner ++ closing :: behind) =
      .ok (.bracketedCondition found, behind) := by
  apply bracketed_ok opens balanced closes
  refine bind_ok_iff.2 ⟨inner, inner, rfl, ?_⟩
  refine bind_ok_iff.2 ⟨false, inner, plain.startsStatement, ?_⟩
  rw [plain.isEmpty]
  exact bind_ok_iff.2 ⟨found, [], wholly_ok_iff.2 ⟨read, rfl⟩, rfl⟩

/-- A column in brackets is one operand. -/
theorem bracketOperand_ok {found : Column} (opens : opening.kind = .leftParen)
    (balanced : inner.Balanced) (closes : closing.kind = .rightParen) (plain : Unannounced inner)
    (read : rules.column scope inner = .ok (found, [])) :
    bracketOperand rules (scope.widen 1) (opening :: inner ++ closing :: behind) =
      .ok (.bracketedColumn found, behind) := by
  apply bracketed_ok opens balanced closes
  refine bind_ok_iff.2 ⟨inner, inner, rfl, ?_⟩
  rw [plain.isEmpty]
  refine bind_ok_iff.2 ⟨false, inner, plain.startsStatement, ?_⟩
  exact bind_ok_iff.2 ⟨found, [], wholly_ok_iff.2 ⟨read, rfl⟩, rfl⟩

end Bracket

/-- In front of a comparison an operand is the whole column. -/
theorem column_of_operand {left : Operand} {symbol : Word} {operator : OrderOperator}
    (compares : orderOperator? symbol.kind = some operator)
    (read : operand rules scope words = .ok (left, symbol :: rest)) :
    column rules scope words = .ok (.column left .nil .absent, symbol :: rest) := by
  refine bind_ok_iff.2 ⟨left, symbol :: rest, read, ?_⟩
  obtain ⟨kind, text, glued, index⟩ := symbol
  cases kind <;> first | rfl | cases compares

/-- A column in front of a comparison is compared. -/
theorem predicate_of_column {left : Column} {symbol : Word} {operator : OrderOperator}
    (compares : orderOperator? symbol.kind = some operator)
    (read : column rules scope words = .ok (left, symbol :: rest)) :
    predicate rules scope words = comparison rules left scope (symbol :: rest) := by
  rw [predicate, bind_apply, read]
  obtain ⟨kind, text, glued, index⟩ := symbol
  cases kind <;> first | rfl | cases compares

theorem comparison_ok {left right : Column} {symbol : Word} {operator : OrderOperator}
    (compares : orderOperator? symbol.kind = some operator) (plain : Unannounced words)
    (read : rules.column scope words = .ok (right, rest)) :
    comparison rules left scope (symbol :: words) =
      .ok (.comparison left operator right, rest) := by
  refine bind_ok_iff.2 ⟨some symbol, symbol :: words, rfl, ?_⟩
  rw [Option.bind_some, compares]
  refine bind_ok_iff.2 ⟨(), words, rfl, ?_⟩
  have noQuantifier : quantifier scope words = .ok (none, words) := by
    refine bind_ok_iff.2 ⟨false, words, plain.eatKeyword .any, ?_⟩
    refine bind_ok_iff.2 ⟨false, words, plain.eatKeyword .some, ?_⟩
    exact bind_ok_iff.2 ⟨false, words, plain.eatKeyword .all, rfl⟩
  refine bind_ok_iff.2 ⟨none, words, noQuantifier, ?_⟩
  exact bind_ok_iff.2 ⟨right, rest, read, rfl⟩

/-- A term at the end of the words is the whole condition. -/
theorem condition_of_term {found : Term} (read : term rules scope words = .ok (found, [])) :
    condition rules scope words = .ok (.condition found .nil, []) :=
  bind_ok_iff.2 ⟨found, [], read, rfl⟩

/-! ### The two readings of a bracket at the front of a condition -/

section Readings

variable {opening closing : Word} {inner : Words} {depth : Nat}

/-- A condition in brackets is a condition. -/
theorem condition_of_bracketed_condition {found : Condition} (noHooks : scope.hooks = {})
    (opens : opening.kind = .leftParen) (balanced : inner.Balanced)
    (closes : closing.kind = .rightParen)
    (read : condition (Grammar.rules depth) scope inner = .ok (found, [])) :
    condition (Grammar.rules (depth + 1)) (scope.widen 1) (opening :: inner ++ [closing]) =
      .ok (.condition (.bracketedCondition found) .nil, []) := by
  have plain := unannounced_of_condition noHooks read
  have bracket : bracketedCondition (Grammar.rules (depth + 1)) (scope.widen 1)
      (opening :: inner ++ [closing]) = .ok (.bracketedCondition found, []) :=
    bracketedCondition_ok opens balanced closes plain read
  have noTermOutside : (scope.widen 1).hooks.term = none := by rw [Scope.widen, noHooks]
  apply condition_of_term
  rw [List.cons_append] at bracket ⊢
  rw [term_at_bracket _ noTermOutside opens, bracket]

/-- A column in brackets can be compared: the words are tried as a condition in brackets first, and
that reading is given up whatever the column is. -/
theorem condition_of_bracketed_column {left right : Column} {words : Words} {symbol : Word}
    {operator : OrderOperator} (noHooks : scope.hooks = {}) (opens : opening.kind = .leftParen)
    (balanced : inner.Balanced) (closes : closing.kind = .rightParen)
    (compares : orderOperator? symbol.kind = some operator)
    (readLeft : column (Grammar.rules depth) scope inner = .ok (left, []))
    (readRight : column (Grammar.rules depth) (scope.widen 1) words = .ok (right, [])) :
    condition (Grammar.rules (depth + 1)) (scope.widen 1)
        (opening :: inner ++ closing :: symbol :: words) =
      .ok (.condition (.comparison (.column (.bracketedColumn left) .nil .absent) operator right)
        .nil, []) := by
  have noOperand : scope.hooks.operand = none := by rw [noHooks]
  have noOperandOutside : (scope.widen 1).hooks.operand = none := noOperand
  have noTermOutside : (scope.widen 1).hooks.term = none := by rw [Scope.widen, noHooks]
  have bracket : bracketOperand (Grammar.rules (depth + 1)) (scope.widen 1)
      (opening :: inner ++ closing :: symbol :: words) =
      .ok (.bracketedColumn left, symbol :: words) :=
    bracketOperand_ok opens balanced closes (unannounced_of_column noOperand readLeft) readLeft
  have noHooksOutside : (scope.widen 1).hooks = {} := noHooks
  obtain ⟨fault, refused, kind⟩ :=
    findsNoCondition_of_bracketOperand (depth + 1) noHooksOutside bracket
  apply condition_of_term
  rw [List.cons_append] at bracket refused ⊢
  rw [term_at_bracket _ noTermOutside opens, refused]
  simp only [kind, if_true]
  rw [← operand_at_bracket noOperandOutside opens] at bracket
  rw [predicate_of_column compares (column_of_operand compares bracket)]
  exact comparison_ok compares (unannounced_of_column noOperandOutside readRight) readRight

end Readings

end Grammar

end SelectTree
