/-
Module: SelectTree.Proofs.Parse.Refused
Purpose: where the error of a parse that is refused comes from.
Main exports: TokenStream.lexicalError?_of_screen, Parser.ending_apply,
  lexical_or_fault_of_refused, Rule.plain_of_parser
-/
import SelectTree.Proofs.Build.Progress

namespace SelectTree

open Build

/-! ### Before the grammar -/

theorem TokenStream.kind_of_lexicalError? {stream : TokenStream} {error : ParseError}
    (found : stream.lexicalError? = some error) : error.kind = .lexical := by
  obtain ⟨token, -, complained⟩ := Option.bind_eq_some_iff.1 found
  obtain ⟨message, -, shown⟩ := Option.bind_eq_some_iff.1 complained
  cases shown
  rfl

/-- What is refused before the grammar gets it is refused for its lexical error. -/
theorem TokenStream.lexicalError?_of_screen {stream : TokenStream} {options : Options}
    {error : ParseError} (refused : stream.screen options = .error (.refused error)) :
    stream.lexicalError? = some error := by
  unfold TokenStream.screen at refused
  cases found : stream.lexicalError? with
  | some lexical =>
      rw [found] at refused
      cases refused
      rfl
  | none =>
      rw [found] at refused
      cases policy : options.enforcePolicy <;> rw [policy] at refused
      · cases refused
      · cases checked : Policy.check (stream.tokens.map Token.kind) <;> rw [checked] at refused <;>
          cases refused

theorem TokenStream.screen_of_lexicalError? {stream : TokenStream} {error : ParseError}
    (found : stream.lexicalError? = some error) (options : Options) :
    stream.screen options = .error (.refused error) := by
  rw [TokenStream.screen, found]
  rfl

/-! ### Behind the grammar -/

/-- Whatever the scope is, one semicolon may be left. -/
theorem Parser.ending_apply (scope : Scope) (words : Words) :
    Parser.ending scope words =
      match if words.head?.any (·.kind == .semicolon) then words.drop 1 else words with
      | [] => .ok ((), [])
      | word :: _ => .error { kind := .incomplete, cause := .leftover, place := some word } := by
  rw [ending, bind_apply, eat_apply]
  cases words.head?.any (·.kind == .semicolon) with
  | true => cases words.drop 1 <;> rfl
  | false => cases words <;> rfl

theorem Parser.fault_of_ending {scope : Scope} {words : Words} {fault : Fault}
    (refused : Parser.ending scope words = .error fault) :
    fault.kind = .incomplete ∧ fault.cause = .leftover := by
  rw [ending_apply] at refused
  split at refused
  · cases refused
  · cases refused
    exact ⟨rfl, rfl⟩

theorem Fault.kind_report (stream : TokenStream) (limit : Nat) (fault : Fault) :
    (fault.report stream limit).kind = fault.kind := by
  unfold Fault.report
  dsimp only
  split <;> rfl

/-- A whole sequence of words is refused where the rule is, or for the words left over. -/
theorem Rule.phrase_error {rule : Rule} {maxDepth : Nat} {hooks : Hooks} {words : Words}
    {fault : Fault} (refused : rule.phrase maxDepth hooks words = .error fault) :
    rule.parser { room := maxDepth, hooks } words = .error fault ∨
      (fault.kind = .incomplete ∧ fault.cause = .leftover) := by
  rcases read : rule.parser { room := maxDepth, hooks } words with found | ⟨phrase, rest⟩ <;>
    rw [Rule.phrase, read] at refused
  · cases refused
    exact .inl rfl
  · rcases ended : Parser.ending { room := maxDepth, hooks } rest with found | _
    · change (Parser.ending { room := maxDepth, hooks } rest).bind _ = _ at refused
      rw [ended] at refused
      cases refused
      exact .inr (Parser.fault_of_ending ended)
    · change (Parser.ending { room := maxDepth, hooks } rest).bind _ = _ at refused
      rw [ended] at refused
      cases refused

/-- A parse is refused for the lexical error of its source, or for the fault that the rule finds. -/
theorem lexical_or_fault_of_refused {entry : EntryPoint} {source : String} {options : Options}
    {hooks : Hooks} {error : ParseError}
    (refused : parse entry source options hooks = .error (.refused error)) :
    (TokenStream.ofString source).lexicalError? = some error ∨ ∃ fault,
      entry.rule.phrase options.maxDepth hooks (TokenStream.ofString source).words = .error fault ∧
        error = fault.report (TokenStream.ofString source) options.maxDepth := by
  rw [parse_eq] at refused
  change Except.map Phrase.tree (((TokenStream.ofString source).screen options).bind _) = _
    at refused
  rcases screened : (TokenStream.ofString source).screen options with failure | _ <;>
    rw [screened] at refused
  · cases refused
    exact .inl (TokenStream.lexicalError?_of_screen screened)
  · refine .inr ?_
    change Except.map _ (Except.mapError _ _) = _ at refused
    rcases found : entry.rule.phrase options.maxDepth hooks (TokenStream.ofString source).words
      with fault | phrase <;> rw [found] at refused <;> cases refused
    exact ⟨fault, rfl, rfl⟩

theorem exists_of_refused {entry : EntryPoint} {source : String} {options : Options}
    {hooks : Hooks} {error : ParseError}
    (refused : parse entry source options hooks = .error (.refused error)) :
    error.kind = .lexical ∨ ∃ fault,
      entry.rule.phrase options.maxDepth hooks (TokenStream.ofString source).words = .error fault ∧
        error = fault.report (TokenStream.ofString source) options.maxDepth :=
  (lexical_or_fault_of_refused refused).imp_left TokenStream.kind_of_lexicalError?

/-- Text that is no token is reported before anything else is looked at. -/
theorem parse_of_lexicalError? {source : String} {error : ParseError}
    (found : (TokenStream.ofString source).lexicalError? = some error) (entry : EntryPoint)
    (options : Options) (hooks : Hooks) :
    parse entry source options hooks = .error (.refused error) := by
  rw [parse, TokenStream.tree, TokenStream.screen_of_lexicalError? found]
  rfl

/-! ### In the grammar -/

namespace Build

/-- Whatever the words are, a rule without hooks reports nothing but what the grammar reports by
itself. -/
theorem Procedure.plain_of_on {procedure : Procedure} {depth : Nat} {limits : Limits}
    {workspace behind : Workspace} {fault : Fault} (hookless : limits.hooks = {})
    (refused : (procedure.builder (rules depth)).on limits workspace = (.error fault, behind)) :
    fault.Plain procedure.isSettled := by
  have front : Lead.behind.Holds (workspace.words.length + 1) workspace.words := Nat.lt_succ_self _
  have reached := procedure.assembled.reaches (rules_orderly depth) limits workspace hookless front
  rw [refused] at reached
  exact reached.proceeds.plain fault rfl

end Build

theorem Rule.plain_of_parser {rule : Rule} {room : Nat} {words : Words} {fault : Fault}
    (refused : rule.parser { room } words = .error fault) :
    fault.Plain rule.procedure.isSettled := by
  have answer : rule.parser (Limits.scope { room } 0) words = .error fault := refused
  let workspace : Workspace := { words, nesting := 0, tree := .new }
  have closed : workspace.tree.Closed := .new
  obtain ⟨left, nodes, -, ran⟩ := rule.builds.on_of_error closed answer
  rw [Rule.builder, on_deeply, rule.buildStep_eq] at ran
  exact Procedure.plain_of_on rfl ran

end SelectTree
