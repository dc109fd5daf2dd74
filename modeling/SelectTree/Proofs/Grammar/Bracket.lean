/-
Module: SelectTree.Proofs.Grammar.Bracket
Purpose: brackets that can be read as a column say, when they are read as a condition, that they
  are none.
Main exports: Parser.FindsNoCondition, Grammar.findsNoCondition_predicate,
  Grammar.findsNoCondition_bracketedCondition
-/
import SelectTree.Proofs.Build.Apply

namespace SelectTree

namespace Parser

variable {α β : Type} {scope : Scope} {words : Words}

/-- The parser refuses the words because they are not a condition. -/
def FindsNoCondition (parser : Parser α) (scope : Scope) (words : Words) : Prop :=
  ∃ fault, parser scope words = .error fault ∧ fault.kind = .notACondition

/-- What is wrong with the first part is wrong with the whole. -/
theorem FindsNoCondition.bind {first : Parser α} (found : FindsNoCondition first scope words)
    (next : α → Parser β) : FindsNoCondition (first >>= next) scope words := by
  obtain ⟨fault, refused, kind⟩ := found
  exact ⟨fault, by rw [bind_apply, refused], kind⟩

/-- What is wrong behind the first part is wrong with the whole. -/
theorem FindsNoCondition.behind {first : Parser α} {next : α → Parser β} {value : α}
    {rest : Words} (read : first scope words = .ok (value, rest))
    (found : FindsNoCondition (next value) scope rest) :
    FindsNoCondition (first >>= next) scope words := by
  obtain ⟨fault, refused, kind⟩ := found
  exact ⟨fault, by rw [bind_apply, read]; exact refused, kind⟩

/-- What is wrong with the contents of a bracket is wrong with the bracket. -/
theorem FindsNoCondition.bracketed {body : Word → Parser α} {group : Words.Group} {room : Nat}
    (opened : openGroup words = .ok group) (entered : enter scope.room group.contents = .ok room)
    (found : FindsNoCondition (body group.opening) { scope with room } group.contents) :
    FindsNoCondition (bracketed body) scope words := by
  obtain ⟨fault, refused, kind⟩ := found
  exact ⟨fault, by simp only [bracketed_apply, opened, entered, refused], kind⟩

theorem exists_group_of_bracketed_ok {body : Word → Parser α} {result : α × Words}
    (read : bracketed body scope words = .ok result) :
    ∃ group room inner, openGroup words = .ok group ∧
      enter scope.room group.contents = .ok room ∧
      body group.opening { scope with room } group.contents = .ok inner := by
  rw [bracketed_apply] at read
  split at read
  · cases read
  · next group opened =>
      split at read
      · cases read
      · next room entered =>
          split at read
          · next value left contents => exact ⟨group, room, _, opened, entered, contents⟩
          · cases read

/-- Looking whether a statement starts consumes nothing. -/
theorem exists_startsStatement_eq (scope : Scope) (words : Words) :
    ∃ starts, startsStatement scope words = .ok (starts, words) :=
  ⟨_, rfl⟩

theorem rest_of_startsStatement {starts : Bool} {rest : Words}
    (checked : startsStatement scope words = .ok (starts, rest)) : rest = words :=
  (Prod.mk.inj (Except.ok.inj checked)).2.symm

theorem bind_ok_iff {first : Parser α} {next : α → Parser β} {result : β × Words} :
    (first >>= next) scope words = .ok result ↔
      ∃ value rest, first scope words = .ok (value, rest) ∧ next value scope rest = .ok result := by
  rw [bind_apply]
  rcases first scope words with fault | ⟨value, rest⟩
  · simp
  · constructor
    · exact fun goesOn => ⟨value, rest, rfl, goesOn⟩
    · rintro ⟨_, _, ⟨⟩, goesOn⟩
      exact goesOn

/-- Without a hook the words are left to the rule. -/
theorem hooked_eq_none {choose : Hooks → Option (Hook α)} (noHook : choose scope.hooks = none) :
    hooked choose scope words = .ok (none, words) := by
  rw [hooked, noHook]

theorem check_apply (kind : TokenKind) :
    check kind scope words = .ok (words.head?.any (·.kind == kind), words) := rfl

theorem eat_apply (kind : TokenKind) :
    eat kind scope words =
      if words.head?.any (·.kind == kind) then .ok (true, words.drop 1)
      else .ok (false, words) := by
  rw [eat, bind_apply, check_apply]
  cases words.head?.any (·.kind == kind) <;> rfl

theorem expectKeyword_ok_iff {keyword : Keyword} {word : Word} {rest : Words} :
    expectKeyword keyword scope words = .ok (word, rest) ↔
      word.kind = .keyword keyword ∧ words = word :: rest := by
  constructor
  · intro read
    obtain ⟨_, _, ⟨⟩, read⟩ := bind_ok_iff.1 read
    cases words with
    | nil => cases read
    | cons first words =>
        change (if first.kind = .keyword keyword then _ else _ : Parser Word) scope _ = _ at read
        split at read
        · next isKeyword =>
            cases read
            exact ⟨isKeyword, rfl⟩
        · cases read
  · rintro ⟨isKeyword, rfl⟩
    have peeked : peek scope (word :: rest) = .ok (some word, word :: rest) := rfl
    simp only [expectKeyword, expect, bind_apply, peeked, isKeyword, if_true]
    rfl

theorem wholly_ok_iff {body : Parser α} {value : α} {rest : Words} :
    wholly body scope words = .ok (value, rest) ↔
      body scope words = .ok (value, []) ∧ rest = [] := by
  rw [wholly, bind_ok_iff]
  constructor
  · rintro ⟨found, left, read, ended⟩
    cases left with
    | nil =>
        cases ended
        exact ⟨read, rfl⟩
    | cons word left => cases ended
  · rintro ⟨read, rfl⟩
    exact ⟨value, [], read, rfl⟩

end Parser

namespace Grammar

open SelectTree.Parser

variable {rules : Rules} {scope : Scope} {words : Words}

theorem operand_eq_plainOperand (noHook : scope.hooks.operand = none) :
    operand rules scope words = plainOperand rules scope words := by
  rw [operand, bind_apply, hooked_eq_none noHook]

/-- A bracket begins no other operand. -/
theorem operand_at_bracket {opening : Word} {rest : Words} (noHook : scope.hooks.operand = none)
    (atBracket : opening.kind = .leftParen) :
    operand rules scope (opening :: rest) = bracketOperand rules scope (opening :: rest) := by
  rw [operand_eq_plainOperand noHook]
  obtain ⟨kind, text, glued, index⟩ := opening
  subst atBracket
  rfl

/-- No operand begins with `NOT` or `EXISTS`. -/
theorem operand_at_predicate (rules : Rules) {first : Word} {rest : Words}
    (noHook : scope.hooks.operand = none)
    (reserved : first.kind = .keyword .NOT ∨ first.kind = .keyword .EXISTS) :
    ∃ fault, operand rules scope (first :: rest) = .error fault := by
  rw [operand_eq_plainOperand noHook]
  obtain ⟨kind, text, glued, index⟩ := first
  rcases reserved with rfl | rfl <;> exact ⟨_, rfl⟩

/-- A column at the very end of the words is no condition. -/
theorem findsNoCondition_predicate {found : Column}
    (read : column rules scope words = .ok (found, [])) :
    FindsNoCondition (predicate rules) scope words := by
  refine .behind read ?_
  exact ⟨_, rfl, rfl⟩

theorem term_eq_plainTerm (noHook : scope.hooks.term = none) :
    term rules scope words = plainTerm rules scope words := by
  rw [term, bind_apply, hooked_eq_none noHook]

theorem plainTerm_at_bracket {opening : Word} {rest : Words}
    (atBracket : opening.kind = .leftParen) :
    plainTerm rules scope (opening :: rest) =
      (do
        match ← attempt (bracketedCondition rules) with
        | some found => return found
        | none => predicate rules : Parser Term) scope (opening :: rest) := by
  obtain ⟨kind, text, glued, index⟩ := opening
  subst atBracket
  rfl

/-- A bracket is read as a condition first and as a column if it is none. -/
theorem term_at_bracket (rules : Rules) {opening : Word} {rest : Words}
    (noHook : scope.hooks.term = none) (atBracket : opening.kind = .leftParen) :
    term rules scope (opening :: rest) =
      match bracketedCondition rules scope (opening :: rest) with
      | .ok result => .ok result
      | .error fault =>
          if fault.kind = .notACondition then predicate rules scope (opening :: rest)
          else .error fault := by
  rw [term_eq_plainTerm noHook, plainTerm_at_bracket atBracket, bind_apply, attempt_apply]
  rcases bracketedCondition rules scope (opening :: rest) with fault | result
  · by_cases none : fault.kind = .notACondition <;> simp [none]
  · rfl

/-- Where neither `NOT` nor `EXISTS` nor a bracket stands, a term is a predicate. -/
theorem term_eq_predicate (noHook : scope.hooks.term = none)
    (noNot : words.head?.any (·.kind == .keyword .NOT) = false)
    (noExists : words.head?.any (·.kind == .keyword .EXISTS) = false)
    (noBracket : words.head?.any (·.kind == .leftParen) = false) :
    term rules scope words = predicate rules scope words := by
  rw [term_eq_plainTerm noHook, plainTerm, bind_apply, eatKeyword, eat_apply]
  simp only [noNot, Bool.false_eq_true, if_false]
  rw [bind_apply, eatKeyword, eat_apply]
  simp only [noExists, Bool.false_eq_true, if_false]
  rw [bind_apply, check_apply]
  simp only [noBracket, Bool.false_eq_true, if_false]

/-- No column begins with `NOT` or `EXISTS`. -/
theorem column_at_predicate {found : Column} {rest : Words} (noHook : scope.hooks.operand = none)
    (read : column rules scope words = .ok (found, rest)) :
    words.head?.any (·.kind == .keyword .NOT) = false ∧
      words.head?.any (·.kind == .keyword .EXISTS) = false := by
  obtain ⟨left, behind, readOperand, -⟩ := bind_ok_iff.1 read
  cases words with
  | nil => exact ⟨rfl, rfl⟩
  | cons first words =>
      have free : ¬ (first.kind = .keyword .NOT ∨ first.kind = .keyword .EXISTS) := by
        intro reserved
        obtain ⟨fault, refused⟩ := operand_at_predicate rules noHook reserved
        rw [refused] at readOperand
        cases readOperand
      simpa using free

/-- Words that are a column as a whole are no term, if the bracket they begin with is none. -/
theorem findsNoCondition_term {found : Column} (noHooks : scope.hooks = {})
    (read : column rules scope words = .ok (found, []))
    (bracket : ∀ {result}, bracketOperand rules scope words = .ok result →
      FindsNoCondition (bracketedCondition rules) scope words) :
    FindsNoCondition (term rules) scope words := by
  have noTerm : scope.hooks.term = none := by rw [noHooks]
  have noOperand : scope.hooks.operand = none := by rw [noHooks]
  obtain ⟨fault, refused, kind⟩ := findsNoCondition_predicate read
  obtain ⟨noNot, noExists⟩ := column_at_predicate noOperand read
  refine ⟨fault, ?_, kind⟩
  by_cases noBracket : words.head?.any (·.kind == .leftParen) = false
  · rw [term_eq_predicate noTerm noNot noExists noBracket, refused]
  · obtain ⟨opening, rest, rfl⟩ : ∃ opening rest, words = opening :: rest := by
      cases words with
      | nil => simp at noBracket
      | cons opening rest => exact ⟨opening, rest, rfl⟩
    have atBracket : opening.kind = .leftParen := by simpa using noBracket
    obtain ⟨left, behind, readOperand, -⟩ := bind_ok_iff.1 read
    rw [operand_at_bracket noOperand atBracket] at readOperand
    obtain ⟨none, refusedBracket, noneKind⟩ := bracket readOperand
    rw [term_at_bracket rules noTerm atBracket, refusedBracket]
    simp only [noneKind, if_true, refused]

/-- What a bracket that is read as an operand holds: a statement or a whole column. -/
theorem exists_contents_of_bracketOperand {result : Operand × Words}
    (read : bracketOperand rules scope words = .ok result) :
    ∃ group room, openGroup words = .ok group ∧ enter scope.room group.contents = .ok room ∧
      (startsStatement { scope with room } group.contents = .ok (true, group.contents) ∨
        ∃ inner, rules.column { scope with room } group.contents = .ok (inner, [])) := by
  obtain ⟨group, room, inner, opened, entered, contents⟩ := exists_group_of_bracketed_ok read
  refine ⟨group, room, opened, entered, ?_⟩
  obtain ⟨remaining, rest, ⟨⟩, contents⟩ := bind_ok_iff.1 contents
  split at contents
  · cases contents
  · obtain ⟨starts, rest, checked, contents⟩ := bind_ok_iff.1 contents
    obtain rfl := rest_of_startsStatement checked
    cases starts with
    | true => exact .inl checked
    | false =>
        obtain ⟨found, rest, wholeColumn, -⟩ := bind_ok_iff.1 contents
        exact .inr ⟨found, (wholly_ok_iff.1 wholeColumn).1⟩

/-- A bracket that is read as a column is no condition if no whole column is one. -/
theorem findsNoCondition_bracketedCondition {result : Operand × Words}
    (noHooks : scope.hooks = {}) (read : bracketOperand rules scope words = .ok result)
    (column : ∀ {scope words found}, scope.hooks = {} →
      rules.column scope words = .ok (found, []) →
      FindsNoCondition rules.condition scope words) :
    FindsNoCondition (bracketedCondition rules) scope words := by
  obtain ⟨group, room, opened, entered, contents⟩ := exists_contents_of_bracketOperand read
  refine .bracketed opened entered ?_
  have remain : remaining { scope with room } group.contents =
      .ok (group.contents, group.contents) := rfl
  refine .behind remain ?_
  rcases contents with starts | ⟨inner, wholeColumn⟩
  · refine .behind starts ?_
    rw [Bool.or_true]
    exact ⟨_, rfl, rfl⟩
  · obtain ⟨starts, checked⟩ := exists_startsStatement_eq { scope with room } group.contents
    refine .behind checked ?_
    split
    · exact ⟨_, rfl, rfl⟩
    · exact .bind (.bind (@column { scope with room } _ _ noHooks wholeColumn) _) _

/-- Words that are a column as a whole are no condition, however deep the brackets inside go: a
condition that begins like the column finds nothing behind it to say of it. -/
theorem findsNoCondition_condition (depth : Nat) {found : Column} (noHooks : scope.hooks = {})
    (read : (Grammar.rules depth).column scope words = .ok (found, [])) :
    FindsNoCondition (Grammar.rules depth).condition scope words := by
  induction depth generalizing scope words found with
  | zero => cases read
  | succ depth ih =>
      refine .bind (findsNoCondition_term noHooks read fun readBracket => ?_) _
      exact findsNoCondition_bracketedCondition noHooks readBracket ih

/-- A bracket that is read as a column is no condition. -/
theorem findsNoCondition_of_bracketOperand (depth : Nat) {result : Operand × Words}
    (noHooks : scope.hooks = {})
    (read : bracketOperand (Grammar.rules depth) scope words = .ok result) :
    FindsNoCondition (bracketedCondition (Grammar.rules depth)) scope words :=
  findsNoCondition_bracketedCondition noHooks read (findsNoCondition_condition depth)

/-- A predicate that begins with a bracket says something of a column, so the bracket is read as
one. -/
theorem exists_bracketOperand_of_predicate {opening : Word} {rest : Words}
    {result : Term × Words} (noHook : scope.hooks.operand = none)
    (atBracket : opening.kind = .leftParen)
    (read : predicate rules scope (opening :: rest) = .ok result) :
    ∃ bracket, bracketOperand rules scope (opening :: rest) = .ok bracket := by
  obtain ⟨column, behind, readColumn, -⟩ := bind_ok_iff.1 read
  obtain ⟨left, behind, readOperand, -⟩ := bind_ok_iff.1 readColumn
  exact ⟨_, operand_at_bracket noHook atBracket ▸ readOperand⟩

end Grammar

end SelectTree
