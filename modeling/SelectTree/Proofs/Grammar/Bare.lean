/-
Module: SelectTree.Proofs.Grammar.Bare
Purpose: where the grammar refuses words because they are not a condition.
Main exports: Grammar.startsPredicate, Grammar.predicate_bare_iff, Grammar.Bare,
  Grammar.term_bare_iff, Grammar.condition_bare_iff, Grammar.bracketedCondition_bare_iff
-/
import SelectTree.Proofs.Parse.Settled

namespace SelectTree

open Build (rules_follow rules_orderly)

namespace Parser

/-- Either the first part refuses the words, or what follows it. -/
theorem bind_error_iff {α β : Type} {first : Parser α} {next : α → Parser β} {scope : Scope}
    {words : Words} {fault : Fault} :
    (first >>= next) scope words = .error fault ↔
      first scope words = .error fault ∨
        ∃ value rest, first scope words = .ok (value, rest) ∧
          next value scope rest = .error fault := by
  rw [bind_apply]
  rcases first scope words with other | ⟨value, rest⟩
  · simp
  · constructor
    · exact fun refused => .inr ⟨value, rest, rfl, refused⟩
    · rintro (⟨⟨⟩⟩ | ⟨_, _, ⟨⟩, refused⟩)
      exact refused

end Parser

/-- A word of this kind stands in front. -/
theorem Words.exists_of_any {words : Words} {kind : TokenKind}
    (ahead : ¬ words.head?.any (·.kind == kind) = false) :
    ∃ word rest, words = word :: rest ∧ word.kind = kind := by
  cases words with
  | nil => exact absurd rfl ahead
  | cons word rest => exact ⟨word, rest, rfl, by simpa using ahead⟩

/-! ### What is settled inside of a predicate -/

namespace Parser.Orderly

variable {form : Form} {bound : Nat}

/-- What a builder that proceeds reads goes forward. -/
theorem of_builds {builder : Builder NodeId} {parser : Parser (Phrase form)}
    (builds : Builds builder parser Phrase.layout) (orderly : builder.Orderly true) :
    Orderly bound .start parser fun _ => .start := by
  intro scope words hookless holds
  let limits : Limits := { room := scope.room, hooks := scope.hooks }
  let workspace : Workspace := { words, nesting := scope.nesting, tree := .new }
  have closed : workspace.tree.Closed := .new
  have proceeds := orderly limits workspace hookless
  rcases read : parser scope words with fault | ⟨value, rest⟩
  · have refused : parser (limits.scope workspace.nesting) workspace.words = .error fault := read
    obtain ⟨left, nodes, -, ran⟩ := builds.on_of_error closed refused
    rw [ran] at proceeds
    exact proceeds.plain fault rfl
  · have answer : parser (limits.scope workspace.nesting) workspace.words = .ok (value, rest) :=
      read
    rw [builds.on_of_ok closed answer] at proceeds
    exact ⟨proceeds.words, Nat.le_trans proceeds.words.length_le holds⟩

/-- A settled parser never reports that the words are not a condition. -/
theorem kind_ne {α : Type} {parser : Parser α}
    (orderly : ∀ bound, Orderly bound .start parser fun _ => .start) {scope : Scope}
    {words : Words} {fault : Fault} (hookless : scope.hooks = {})
    (refused : parser scope words = .error fault) : fault.kind ≠ .notACondition := by
  have holds : Lead.start.Holds words.length words := Nat.le_refl _
  exact ((orderly words.length).of_error hookless holds refused).kind_ne

end Parser.Orderly

namespace Grammar

open SelectTree.Parser

section Settled

variable {bound depth : Nat}

theorem orderly_innerColumn : Orderly bound .start (rules depth).column fun _ => .start :=
  .of_builds (rules_follow depth).column (rules_orderly depth .column)

theorem orderly_innerStatement : Orderly bound .start (rules depth).statement fun _ => .start :=
  .of_builds (rules_follow depth).statement (rules_orderly depth .statement)

theorem orderly_column : Orderly bound .start (column (rules depth)) fun _ => .start :=
  .of_builds (rules_follow (depth + 1)).column (rules_orderly (depth + 1) .column)

theorem orderly_bracketedStatement (label : String) :
    Orderly bound .start (bracketedStatement (rules depth) label) fun _ => .start := by
  have statement : Orderly bound .start
      (bracketed fun opening => do
        if !(← startsStatement) then failAt opening (.requires label "a subselect")
        (rules depth).wholeStatement) fun _ => .behind := by
    refine .bracketed fun opening => ?_
    refine .bind .startsStatement fun starts => ?_
    cases starts with
    | true => exact orderly_innerStatement.wholly
    | false => exact .refuseAt opening rfl
  exact statement.forward (by decide)

theorem orderly_membership (left : Column) (negated : Bool) :
    Orderly bound .start (membership (rules depth) left negated) fun _ => .start := by
  have membership : Orderly bound .start (membership (rules depth) left negated)
      fun _ => .behind := by
    refine .bracketed fun opening => ?_
    refine .bind .startsStatement fun starts => ?_
    cases starts with
    | true => exact .bind orderly_innerStatement.wholly fun _ => .pure _ (.inl rfl)
    | false =>
        refine .bind (.segments orderly_innerColumn) fun columns => ?_
        cases columns with
        | nil => exact .failAt opening rfl
        | cons first others => exact .pure _ (.inl rfl)
  exact membership.forward (by decide)

/-- The limits of a range. -/
theorem orderly_range (left : Column) (negated : Bool) :
    Orderly bound .start
      (do
        let lower ← (rules depth).column
        let _ ← expectKeyword .AND
        return Phrase.between left negated lower (← (rules depth).column)) fun _ => .start := by
  refine .seq orderly_innerColumn fun lower => ?_
  refine .seq (.expectKeyword .AND) fun _ => ?_
  exact .bind orderly_innerColumn fun upper => .pure _ (.inl rfl)

theorem orderly_pattern (left : Column) (negated : Bool) :
    Orderly bound .start (do return Phrase.like left negated (← (rules depth).column))
      fun _ => .start :=
  .bind orderly_innerColumn fun _ => .pure _ (.inl rfl)

theorem orderly_absence (left : Column) :
    Orderly bound .start
      (do
        let absent ← eatKeyword .NOT
        let _ ← expectKeyword .NULL
        return Phrase.isNull left absent) fun _ => .start := by
  refine .seq (.eatKeyword .NOT) fun absent => ?_
  exact .seq (.expectKeyword .NULL) fun _ => .pure _ (.inl rfl)

/-- The right side of a comparison. -/
theorem orderly_rightSide (left : Column) (operator : OrderOperator) :
    Orderly bound .start
      (do
        match ← quantifier with
        | some quantifier =>
            return Phrase.setComparison left operator quantifier
              (← bracketedStatement (rules depth) quantifier.text)
        | none => return .comparison left operator (← (rules depth).column)) fun _ => .start := by
  refine orderly_quantifier.bind fun quantifier => ?_
  cases quantifier with
  | some quantifier =>
      exact (orderly_bracketedStatement _).bind fun statement => .pure _ (.inl rfl)
  | none => exact .bind orderly_innerColumn fun right => .pure _ (.inl rfl)

end Settled

/-! ### What is said of a column -/

/-- The words begin with what is said of a column: an order operator, `IN`, `BETWEEN`, `LIKE`, `IS`,
or a `NOT` that belongs to one of the first three of these keywords. -/
def startsPredicate : Words → Bool
  | [] => false
  | word :: rest =>
      match word.kind with
      | .keyword .IN | .keyword .BETWEEN | .keyword .LIKE | .keyword .IS => true
      | .keyword .NOT =>
          match rest.head?.map Word.kind with
          | some (.keyword .IN) | some (.keyword .BETWEEN) | some (.keyword .LIKE) => true
          | _ => false
      | kind => (orderOperator? kind).isSome

/-- A comparison is missing in front of the words, so they are not a condition. -/
def noComparison (words : Words) : Fault :=
  .expected .notACondition "a comparison" words

section Predicate

variable {scope : Scope} {words behind : Words} {left : Column} {depth : Nat} {fault : Fault}

/-- A column of which nothing is said is no condition. -/
theorem predicate_of_bare {rules : Rules}
    (read : column rules scope words = .ok (left, behind))
    (bare : startsPredicate behind = false) :
    predicate rules scope words = .error (noComparison behind) := by
  rw [predicate, bind_apply, read]
  rcases behind with _ | ⟨⟨kind, text, glued, index⟩, rest⟩
  · rfl
  · cases kind with
    | keyword keyword =>
        cases keyword with
        | NOT =>
            rcases rest with _ | ⟨⟨kind, text, glued, index⟩, rest⟩
            · rfl
            · cases kind with
              | keyword keyword => cases keyword <;> first | rfl | cases bare
              | _ => rfl
        | _ => first | rfl | cases bare
    | _ => first | rfl | cases bare

/-- Where something is said of a column, there is no doubt that a condition is meant. -/
theorem kind_of_predicate (hookless : scope.hooks = {})
    (read : column (rules depth) scope words = .ok (left, behind))
    (predicated : startsPredicate behind = true)
    (refused : predicate (rules depth) scope words = .error fault) :
    fault.kind ≠ .notACondition := by
  have settled {parser : Parser Term} {rest : Words}
      (orderly : ∀ bound, Orderly bound .start parser fun _ => .start)
      (refused : parser scope rest = .error fault) : fault.kind ≠ .notACondition :=
    Orderly.kind_ne orderly hookless refused
  rw [predicate, bind_apply, read] at refused
  rcases behind with _ | ⟨⟨kind, text, glued, index⟩, rest⟩
  · cases predicated
  · cases kind with
    | keyword keyword =>
        cases keyword with
        | IN => exact settled (fun _ => orderly_membership left false) refused
        | BETWEEN => exact settled (fun _ => orderly_range left false) refused
        | LIKE => exact settled (fun _ => orderly_pattern left false) refused
        | IS => exact settled (fun _ => orderly_absence left) refused
        | NOT =>
            rcases rest with _ | ⟨⟨kind, text, glued, index⟩, rest⟩
            · cases predicated
            · cases kind with
              | keyword keyword =>
                  cases keyword with
                  | IN => exact settled (fun _ => orderly_membership left true) refused
                  | BETWEEN => exact settled (fun _ => orderly_range left true) refused
                  | LIKE => exact settled (fun _ => orderly_pattern left true) refused
                  | _ => cases predicated
              | _ => cases predicated
        | _ => cases predicated
    | eq => exact settled (fun _ => orderly_rightSide left .eq) refused
    | notEq => exact settled (fun _ => orderly_rightSide left .notEq) refused
    | lt => exact settled (fun _ => orderly_rightSide left .lt) refused
    | ltEq => exact settled (fun _ => orderly_rightSide left .ltEq) refused
    | gt => exact settled (fun _ => orderly_rightSide left .gt) refused
    | gtEq => exact settled (fun _ => orderly_rightSide left .gtEq) refused
    | _ => cases predicated

/-- A predicate is refused as no condition for a column of which nothing is said, and for nothing
else. -/
theorem predicate_bare_iff (hookless : scope.hooks = {}) :
    (predicate (rules depth) scope words = .error fault ∧ fault.kind = .notACondition) ↔
      ∃ left behind, column (rules depth) scope words = .ok (left, behind) ∧
        startsPredicate behind = false ∧ fault = noComparison behind := by
  constructor
  · rintro ⟨refused, kind⟩
    rcases read : column (rules depth) scope words with other | ⟨left, behind⟩
    · rw [predicate, bind_apply, read] at refused
      cases refused
      exact absurd kind (Orderly.kind_ne (fun _ => orderly_column) hookless read)
    · refine ⟨left, behind, rfl, ?_⟩
      cases bare : startsPredicate behind with
      | true => exact absurd kind (kind_of_predicate hookless read bare refused)
      | false =>
          rw [predicate_of_bare read bare] at refused
          exact ⟨rfl, (Except.error.inj refused).symm⟩
  · rintro ⟨left, behind, read, bare, rfl⟩
    exact ⟨predicate_of_bare read bare, rfl⟩

end Predicate

/-! ### Terms and conditions -/

/-- Behind any number of `NOT` the words are a column, and nothing is said of it behind it.  The
rules are those that the term is read with, to as many levels as the number says. -/
inductive Bare : Nat → Scope → Words → Words → Prop where
  | column {depth : Nat} {scope : Scope} {words behind : Words} {left : Column} :
      column (rules depth) scope words = .ok (left, behind) → startsPredicate behind = false →
      Bare depth scope words behind
  | not {depth : Nat} {scope : Scope} {word : Word} {words behind : Words} :
      word.kind = .keyword .NOT → scope.nesting + 1 < scope.room →
      Bare depth { scope with nesting := scope.nesting + 1 } words behind →
      Bare (depth + 1) scope (word :: words) behind

section Term

variable {scope : Scope} {word : Word} {words rest : Words} {depth : Nat} {fault : Fault}

theorem term_at_not {rules : Rules} (noHook : scope.hooks.term = none)
    (isNot : word.kind = .keyword .NOT) :
    term rules scope (word :: rest) =
      match checkNesting scope.room (scope.nesting + 1) rest with
      | .error fault => .error fault
      | .ok _ =>
          match rules.term { scope with nesting := scope.nesting + 1 } rest with
          | .error fault => .error fault
          | .ok (inner, behind) => .ok (.not inner, behind) := by
  have taken : term rules scope (word :: rest) =
      (do return Phrase.not (← nested rules.term) : Parser Term) scope rest := by
    rw [term_eq_plainTerm noHook]
    obtain ⟨kind, text, glued, index⟩ := word
    subst isNot
    rfl
  rw [taken, bind_apply, nested_apply]
  rcases checkNesting scope.room (scope.nesting + 1) rest with other | _
  · rfl
  · rcases rules.term { scope with nesting := scope.nesting + 1 } rest with other | ⟨inner, behind⟩
      <;> rfl

/-- A column that begins with a bracket is given up as a condition first. -/
theorem findsNoCondition_of_column {opening : Word} {left : Column} {behind : Words}
    (hookless : scope.hooks = {}) (opens : opening.kind = .leftParen)
    (read : column (rules depth) scope (opening :: rest) = .ok (left, behind)) :
    FindsNoCondition (bracketedCondition (rules depth)) scope (opening :: rest) := by
  have noHook : scope.hooks.operand = none := by rw [hookless]
  obtain ⟨first, further, readOperand, -⟩ := bind_ok_iff.1 read
  rw [operand_at_bracket noHook opens] at readOperand
  exact findsNoCondition_of_bracketOperand depth hookless readOperand

/-- Behind `EXISTS` there is no doubt that a condition is meant. -/
theorem kind_of_existence (hookless : scope.hooks = {}) (isExists : word.kind = .keyword .EXISTS)
    (refused : term (rules depth) scope (word :: rest) = .error fault) :
    fault.kind ≠ .notACondition := by
  have noHook : scope.hooks.term = none := by rw [hookless]
  have orderly : ∀ bound, Orderly bound .start
      (do return Phrase.exists (← bracketedStatement (rules depth) "EXISTS")) fun _ => .start :=
    fun _ => (orderly_bracketedStatement _).bind fun _ => .pure _ (.inl rfl)
  rw [term_eq_plainTerm noHook] at refused
  obtain ⟨kind, text, glued, index⟩ := word
  subst isExists
  exact Orderly.kind_ne orderly hookless refused

/-- Where no `NOT` stands in front, a term is refused as no condition like a predicate, also where
a bracket is tried as a condition first. -/
theorem term_bare_iff_of_not (hookless : scope.hooks = {})
    (noNot : words.head?.any (·.kind == .keyword .NOT) = false) :
    (term (rules depth) scope words = .error fault ∧ fault.kind = .notACondition) ↔
      ∃ left behind, column (rules depth) scope words = .ok (left, behind) ∧
        startsPredicate behind = false ∧ fault = noComparison behind := by
  have noTerm : scope.hooks.term = none := by rw [hookless]
  have noOperand : scope.hooks.operand = none := by rw [hookless]
  by_cases noExists : words.head?.any (·.kind == .keyword .EXISTS) = false
  case neg =>
    constructor
    · rintro ⟨refused, kind⟩
      obtain ⟨word, rest, rfl, isExists⟩ := Words.exists_of_any noExists
      exact absurd kind (kind_of_existence hookless isExists refused)
    · rintro ⟨left, behind, read, -⟩
      exact absurd (column_at_predicate noOperand read).2 noExists
  by_cases noBracket : words.head?.any (·.kind == .leftParen) = false
  case pos => rw [term_eq_predicate noTerm noNot noExists noBracket, predicate_bare_iff hookless]
  obtain ⟨opening, rest, rfl, opens⟩ := Words.exists_of_any noBracket
  rw [← predicate_bare_iff hookless, term_at_bracket (rules depth) noTerm opens]
  rcases tried : bracketedCondition (rules depth) scope (opening :: rest) with other | result
  · by_cases given : other.kind = .notACondition
    · simp only [if_pos given]
    · simp only [if_neg given]
      constructor
      · rintro ⟨⟨⟩, kind⟩
        exact absurd kind given
      · intro bare
        obtain ⟨left, behind, read, -⟩ := (predicate_bare_iff hookless).1 bare
        obtain ⟨again, refused, kind⟩ := findsNoCondition_of_column hookless opens read
        rw [tried] at refused
        cases refused
        exact absurd kind given
  · constructor
    · rintro ⟨⟨⟩, -⟩
    · intro bare
      obtain ⟨left, behind, read, -⟩ := (predicate_bare_iff hookless).1 bare
      obtain ⟨again, refused, -⟩ := findsNoCondition_of_column hookless opens read
      rw [tried] at refused
      cases refused

/-- No column begins with `NOT`. -/
theorem bare_at_not_iff {behind : Words} (hookless : scope.hooks = {})
    (isNot : word.kind = .keyword .NOT) :
    Bare depth scope (word :: rest) behind ↔
      ∃ below, depth = below + 1 ∧ scope.nesting + 1 < scope.room ∧
        Bare below { scope with nesting := scope.nesting + 1 } rest behind := by
  constructor
  · rintro (⟨read, -⟩ | ⟨-, fits, inner⟩)
    · have noHook : scope.hooks.operand = none := by rw [hookless]
      have noNot := (column_at_predicate noHook read).1
      simp [isNot] at noNot
    · exact ⟨_, rfl, fits, inner⟩
  · rintro ⟨below, rfl, fits, inner⟩
    exact .not isNot fits inner

theorem bare_iff_of_not {behind : Words}
    (noNot : words.head?.any (·.kind == .keyword .NOT) = false) :
    Bare depth scope words behind ↔
      ∃ left, column (rules depth) scope words = .ok (left, behind) ∧
        startsPredicate behind = false := by
  constructor
  · rintro (⟨read, bare⟩ | ⟨isNot, -, -⟩)
    · exact ⟨_, read, bare⟩
    · simp [isNot] at noNot
  · rintro ⟨left, read, bare⟩
    exact .column read bare

theorem term_bare_iff_of_plain (hookless : scope.hooks = {})
    (noNot : words.head?.any (·.kind == .keyword .NOT) = false) :
    (term (rules depth) scope words = .error fault ∧ fault.kind = .notACondition) ↔
      ∃ behind, Bare depth scope words behind ∧ fault = noComparison behind := by
  simp only [term_bare_iff_of_not hookless noNot, bare_iff_of_not noNot]
  constructor
  · rintro ⟨left, behind, read, bare, rfl⟩
    exact ⟨behind, ⟨left, read, bare⟩, rfl⟩
  · rintro ⟨behind, ⟨left, read, bare⟩, rfl⟩
    exact ⟨left, behind, read, bare, rfl⟩

/-- Behind `NOT` a term is refused as no condition if the term inside is, and there is a level
left for it. -/
theorem term_at_not_iff {rules : Rules} (hookless : scope.hooks = {})
    (isNot : word.kind = .keyword .NOT) :
    (term rules scope (word :: rest) = .error fault ∧ fault.kind = .notACondition) ↔
      scope.nesting + 1 < scope.room ∧
        rules.term { scope with nesting := scope.nesting + 1 } rest = .error fault ∧
          fault.kind = .notACondition := by
  have noHook : scope.hooks.term = none := by rw [hookless]
  rw [term_at_not noHook isNot, checkNesting]
  by_cases fits : scope.nesting + 1 < scope.room
  · simp only [fits, if_true, true_and]
    rcases rules.term { scope with nesting := scope.nesting + 1 } rest with other | ⟨inner, behind⟩
      <;> simp
  · simp only [fits, if_false, false_and, iff_false]
    rintro ⟨⟨⟩, kind⟩
    cases kind

/-- A term is refused as no condition exactly where a column of which nothing is said stands behind
any number of `NOT`, and what is missing is missing behind the column. -/
theorem term_bare_iff (hookless : scope.hooks = {}) :
    (term (rules depth) scope words = .error fault ∧ fault.kind = .notACondition) ↔
      ∃ behind, Bare depth scope words behind ∧ fault = noComparison behind := by
  -- By induction on the levels of rules: each `NOT` goes down by one.
  induction depth generalizing scope words with
  | zero =>
      by_cases noNot : words.head?.any (·.kind == .keyword .NOT) = false
      case pos => exact term_bare_iff_of_plain hookless noNot
      obtain ⟨word, rest, rfl, isNot⟩ := Words.exists_of_any noNot
      simp only [term_at_not_iff hookless isNot, bare_at_not_iff hookless isNot]
      constructor
      · rintro ⟨-, ⟨⟩, kind⟩
        cases kind
      · rintro ⟨behind, ⟨below, none, -⟩, -⟩
        cases none
  | succ depth ih =>
      by_cases noNot : words.head?.any (·.kind == .keyword .NOT) = false
      case pos => exact term_bare_iff_of_plain hookless noNot
      obtain ⟨word, rest, rfl, isNot⟩ := Words.exists_of_any noNot
      have inner : ((rules (depth + 1)).term { scope with nesting := scope.nesting + 1 } rest =
            .error fault ∧ fault.kind = .notACondition) ↔
          ∃ behind, Bare depth { scope with nesting := scope.nesting + 1 } rest behind ∧
            fault = noComparison behind := ih hookless
      simp only [term_at_not_iff hookless isNot, bare_at_not_iff hookless isNot, inner]
      constructor
      · rintro ⟨fits, behind, bare, rfl⟩
        exact ⟨behind, ⟨depth, rfl, fits, bare⟩, rfl⟩
      · rintro ⟨behind, ⟨_, ⟨⟩, fits, bare⟩, rfl⟩
        exact ⟨fits, behind, bare, rfl⟩

/-- The links behind the first term of a condition are settled. -/
theorem kind_of_link {rules : Rules} (refused : link rules scope words = .error fault) :
    fault.kind ≠ .notACondition := by
  obtain ⟨⟨⟩⟩ | ⟨_, _, ⟨⟩, refused⟩ := bind_error_iff.1 refused
  cases operator : words.head?.bind fun word => logicOperator? word.kind with
  | none =>
      simp only [operator] at refused
      cases refused
  | some operator' =>
      simp only [operator] at refused
      obtain ⟨⟨⟩⟩ | ⟨_, _, ⟨⟩, refused⟩ := bind_error_iff.1 refused
      obtain refused | ⟨_, _, _, ⟨⟩⟩ := bind_error_iff.1 refused
      exact kind_of_committed refused

theorem kind_of_links {rules : Rules} {count : Nat}
    (refused : manyUpTo (link rules) count scope words = .error fault) :
    fault.kind ≠ .notACondition := by
  induction count generalizing words with
  | zero => cases refused
  | succ count ih =>
      obtain refused | ⟨next, rest, -, refused⟩ := bind_error_iff.1 refused
      · exact kind_of_link refused
      · cases next with
        | none => cases refused
        | some first =>
            obtain refused | ⟨_, _, _, ⟨⟩⟩ := bind_error_iff.1 refused
            exact ih refused

/-- A condition is refused as none like its first term. -/
theorem condition_bare_iff (hookless : scope.hooks = {}) :
    (condition (rules depth) scope words = .error fault ∧ fault.kind = .notACondition) ↔
      ∃ behind, Bare depth scope words behind ∧ fault = noComparison behind := by
  rw [← term_bare_iff hookless]
  constructor
  · rintro ⟨refused, kind⟩
    obtain refused | ⟨left, rest, -, refused⟩ := bind_error_iff.1 refused
    · exact ⟨refused, kind⟩
    · obtain refused | ⟨_, _, _, ⟨⟩⟩ := bind_error_iff.1 refused
      obtain ⟨⟨⟩⟩ | ⟨_, _, ⟨⟩, refused⟩ := bind_error_iff.1 refused
      exact absurd kind (kind_of_links refused)
  · rintro ⟨refused, kind⟩
    exact ⟨bind_error_iff.2 (.inl refused), kind⟩

end Term

/-! ### Brackets -/

/-- The contents of a bracket cannot begin a condition: they are missing or a statement. -/
def isVacant (contents : Words) : Bool :=
  contents.head?.all fun word => word.kind == .keyword .SELECT || word.kind == .keyword .WITH

theorem exists_startsStatement_isVacant (scope : Scope) (contents : Words) :
    ∃ starts, startsStatement scope contents = .ok (starts, contents) ∧
      (contents.isEmpty || starts) = isVacant contents := by
  cases contents with
  | nil => exact ⟨_, rfl, rfl⟩
  | cons word rest => exact ⟨_, rfl, by simp [isVacant]⟩

/-- Neither a bracket that is not closed nor one for which there is no room is refused as no
condition, so the contents are. -/
theorem bracketed_bare_iff {α : Type} {body : Word → Parser α} {scope : Scope} {words : Words}
    {fault : Fault} :
    (bracketed body scope words = .error fault ∧ fault.kind = .notACondition) ↔
      ∃ group room, openGroup words = .ok group ∧ enter scope.room group.contents = .ok room ∧
        body group.opening { scope with room } group.contents = .error fault ∧
          fault.kind = .notACondition := by
  rw [bracketed_apply]
  constructor
  · rintro ⟨refused, kind⟩
    rcases opened : openGroup words with other | group <;> simp only [opened] at refused
    · cases refused
      exact absurd kind (plain_of_openGroup opened).kind_ne
    rcases entered : enter scope.room group.contents with other | room <;>
      simp only [entered] at refused
    · cases refused
      exact absurd kind (plain_of_enter entered).kind_ne
    refine ⟨group, room, rfl, entered, ?_, kind⟩
    rcases read : body group.opening { scope with room } group.contents with other | ⟨value, rest⟩
      <;> simp only [read] at refused <;> cases refused
    rfl
  · rintro ⟨group, room, opened, entered, refused, kind⟩
    simp only [opened, entered, refused, kind, and_self]

/-- That words are left over is not what makes them no condition. -/
theorem wholly_error_iff {α : Type} {body : Parser α} {scope : Scope} {words : Words}
    {fault : Fault} (kind : fault.kind = .notACondition) :
    wholly body scope words = .error fault ↔ body scope words = .error fault := by
  rw [wholly, bind_error_iff]
  constructor
  · rintro (refused | ⟨value, rest, -, refused⟩)
    · exact refused
    · cases rest with
      | nil => cases refused
      | cons word rest =>
          cases refused
          cases kind
  · exact .inl

/-- A bracket that is vacant is refused as no condition at its opening, any other one where its
contents are. -/
theorem bracketedCondition_bare_iff {rules : Rules} {scope : Scope} {words : Words}
    {fault : Fault} :
    (bracketedCondition rules scope words = .error fault ∧ fault.kind = .notACondition) ↔
      ∃ group room, openGroup words = .ok group ∧ enter scope.room group.contents = .ok room ∧
        (isVacant group.contents = true ∧
            fault = { kind := .notACondition, cause := .noCondition,
                      place := some group.opening } ∨
          isVacant group.contents = false ∧
            rules.condition { scope with room } group.contents = .error fault ∧
              fault.kind = .notACondition) := by
  rw [bracketedCondition, bracketed_bare_iff]
  refine exists_congr fun group => exists_congr fun room => ?_
  refine and_congr_right fun _ => and_congr_right fun _ => ?_
  obtain ⟨starts, checked, isVacant⟩ :=
    exists_startsStatement_isVacant { scope with room } group.contents
  have look : Parser.remaining { scope with room } group.contents =
      .ok (group.contents, group.contents) := rfl
  simp only [bind_apply, look, checked, isVacant]
  cases Grammar.isVacant group.contents with
  | true =>
      simp only [if_true, true_and, Bool.true_eq_false, false_and, or_false]
      constructor
      · rintro ⟨⟨⟩, -⟩
        rfl
      · rintro rfl
        exact ⟨rfl, rfl⟩
  | false =>
      simp only [Bool.false_eq_true, if_false, false_and, true_and, false_or]
      refine and_congr_left fun kind => ?_
      refine Iff.trans bind_error_iff ?_
      constructor
      · rintro (refused | ⟨_, _, _, ⟨⟩⟩)
        exact (wholly_error_iff kind).1 refused
      · exact fun refused => .inl ((wholly_error_iff kind).2 refused)

end Grammar

end SelectTree
