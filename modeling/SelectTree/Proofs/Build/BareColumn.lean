/-
Module: SelectTree.Proofs.Build.BareColumn
Purpose: words are refused as no condition exactly where, behind any number of `NOT`, they are a
  column of which nothing is said.
Main exports: Build.BareColumn, Build.no_condition_iff
-/
import SelectTree.Proofs.Grammar.Bare
import SelectTree.Proofs.Tree.Made

namespace SelectTree

/-- The parser refuses the words exactly where the builder does, and for the same reason. -/
theorem Builds.refused_iff {form : Form} {builder : Builder NodeId} {parser : Parser (Phrase form)}
    (builds : Builds builder parser Phrase.layout) {limits : Limits} {workspace : Workspace}
    (closed : workspace.tree.Closed) {fault : Fault} :
    (builder.on limits workspace).1 = .error fault ↔
      parser (limits.scope workspace.nesting) workspace.words = .error fault := by
  rcases read : parser (limits.scope workspace.nesting) workspace.words with other | ⟨value, rest⟩
  · obtain ⟨_, _, -, ran⟩ := builds.on_of_error closed read
    simp [ran]
  · simp [builds.on_of_ok closed read]

namespace Build

/-! ### Conditions that are added to a tree -/

theorem iterate_around (depth : Nat) : Rules.around^[depth] .exhausted = rules depth := by
  induction depth with
  | zero => rfl
  | succ depth ih =>
      rw [Function.iterate_succ_apply', ih]
      rfl

/-- Rules of any depth that is enough for the words do the same. -/
theorem on_buildStep (rule : Rule) {room depth : Nat} {workspace : Workspace}
    (enough : workspace.words.length < depth) :
    (rule.buildStep (rules depth)).on { room } workspace = rule.builder.on { room } workspace := by
  rw [← iterate_around]
  exact ((rules_progress room workspace).1 rule).1 .exhausted depth enough

/-- Behind any number of `NOT`, the rule for columns reads a column from the workspace, and behind
it nothing is said of the column.  The last argument is what is left there. -/
inductive BareColumn (room : Nat) : Workspace → Words → Prop where
  | column {workspace behind : Workspace} {id : NodeId} :
      Rule.column.builder.on { room } workspace = (.ok id, behind) →
      Grammar.startsPredicate behind.words = false → BareColumn room workspace behind.words
  | not {workspace : Workspace} {word : Word} {rest behind : Words} :
      workspace.words = word :: rest → word.kind = .keyword .NOT → workspace.nesting + 1 < room →
      BareColumn room { workspace with words := rest, nesting := workspace.nesting + 1 } behind →
      BareColumn room workspace behind

section Bare

variable {room depth : Nat} {workspace : Workspace} {behind : Words}

theorem BareColumn.bare (bare : BareColumn room workspace behind)
    (closed : workspace.tree.Closed) (enough : workspace.words.length < depth) :
    Grammar.Bare depth (Limits.scope { room } workspace.nesting) workspace.words behind := by
  induction bare generalizing depth with
  | @column workspace behind id ran nothing =>
      rw [← on_buildStep .column enough] at ran
      have builds := builds_column (rules_follow depth)
      rcases read : Grammar.column (Grammar.rules depth) (Limits.scope { room } workspace.nesting)
        workspace.words with fault | ⟨left, rest⟩
      · obtain ⟨_, _, -, refused⟩ := builds.on_of_error closed read
        rw [Rule.buildStep, refused] at ran
        cases ran
      · rw [Rule.buildStep, builds.on_of_ok closed read] at ran
        cases ran
        exact .column read nothing
  | not words isNot fits _ ih =>
      rw [words] at enough ⊢
      obtain ⟨depth, rfl⟩ := Nat.exists_eq_add_one_of_ne_zero (Nat.ne_zero_of_lt enough)
      exact .not isNot fits (ih closed (Nat.lt_of_succ_lt_succ enough))

theorem BareColumn.of_bare {scope : Scope} {words : Words}
    (bare : Grammar.Bare depth scope words behind) (closed : workspace.tree.Closed)
    (isScope : scope = Limits.scope { room } workspace.nesting) (isWords : words = workspace.words)
    (enough : workspace.words.length < depth) : BareColumn room workspace behind := by
  induction bare generalizing workspace with
  | column read nothing =>
      subst isScope isWords
      have ran := (builds_column (rules_follow _)).on_of_ok closed read
      exact .column ((on_buildStep .column enough).symm.trans ran) nothing
  | not isNot fits _ ih =>
      subst isScope
      rw [← isWords] at enough
      refine .not isWords.symm isNot fits ?_
      exact ih closed rfl rfl (Nat.lt_of_succ_lt_succ enough)

end Bare

theorem bareColumn_iff {room depth : Nat} {workspace : Workspace} {behind : Words}
    (closed : workspace.tree.Closed) (enough : workspace.words.length < depth) :
    BareColumn room workspace behind ↔
      Grammar.Bare depth (Limits.scope { room } workspace.nesting) workspace.words behind :=
  ⟨fun bare => bare.bare closed enough, fun bare => .of_bare bare closed rfl rfl enough⟩

/-- Whatever the words, the room and the level of nesting are: the words are refused as no condition
exactly where, behind any number of `NOT`, a column stands of which nothing is said, and then the
error is about the first word behind that column.  Only a bracket that is empty or holds a statement
is refused as no condition without being looked into; any other bracket is refused so exactly where
its contents are. -/
theorem no_condition_iff (room : Nat) {workspace : Workspace} (made : workspace.tree.Made)
    (fault : Fault) :
    ((Rule.condition.builder.on { room } workspace).1 = .error fault ∧
        fault.kind = .notACondition ↔
      ∃ behind, BareColumn room workspace behind ∧ fault = Grammar.noComparison behind) ∧
    ∀ depth, workspace.words.length < depth →
      (((bracketedCondition (rules depth)).on { room } workspace).1 = .error fault ∧
          fault.kind = .notACondition ↔
        ∃ group inner, Parser.openGroup workspace.words = .ok group ∧
          Parser.enter room group.contents = .ok inner ∧
          (Grammar.isVacant group.contents = true ∧
              fault = { kind := .notACondition, cause := .noCondition,
                        place := some group.opening } ∨
            Grammar.isVacant group.contents = false ∧ ∃ behind,
              BareColumn inner { workspace with words := group.contents } behind ∧
                fault = Grammar.noComparison behind)) := by
  have closed := made.closed
  refine ⟨?condition, ?bracket⟩
  case condition =>
    have enough : workspace.words.length < workspace.words.length + 1 := Nat.lt_succ_self _
    simp only [bareColumn_iff closed enough]
    rw [← Grammar.condition_bare_iff rfl, ← (builds_condition (rules_follow _)).refused_iff closed,
      Rule.builder, on_deeply]
    rfl
  case bracket =>
    intro depth enough
    rw [(builds_bracketedCondition (rules_follow depth)).refused_iff closed,
      Grammar.bracketedCondition_bare_iff]
    refine exists_congr fun group => exists_congr fun inner => ?_
    refine and_congr_right fun opened => and_congr_right fun _ => ?_
    refine or_congr_right (and_congr_right fun _ => ?_)
    have fewer := (Words.shrinks_of_group? (Parser.group?_of_openGroup opened)).1
    -- One level of rules is the bracket itself, and its contents are fewer words.
    obtain ⟨depth, rfl⟩ := Nat.exists_eq_add_one_of_ne_zero (Nat.ne_zero_of_lt enough)
    have stillEnough : group.contents.length < depth :=
      Nat.lt_of_lt_of_le fewer (Nat.le_of_lt_succ enough)
    refine (Grammar.condition_bare_iff rfl).trans (exists_congr fun behind => ?_)
    refine and_congr_left fun _ => Iff.symm ?_
    exact bareColumn_iff closed stillEnough

/-- The words of `NOT a`. -/
def negatedName : Workspace :=
  { words := (TokenStream.ofString "NOT a").words, nesting := 0, tree := .new }

/-- The words of `(NOT a) = 1`. -/
def bracketedNegation : Workspace :=
  { words := (TokenStream.ofString "(NOT a) = 1").words, nesting := 0, tree := .new }

/-- In `NOT a` nothing is said of the column, but the words by themselves are no column.  A bracket
around them is given up for that all the same. -/
theorem no_condition_iff_negation :
    negatedName.tree.Made ∧ BareColumn 128 negatedName [] ∧
    (Rule.column.builder.on { room := 128 } negatedName).1 =
      .error (.expected .syntactic "a column" negatedName.words) ∧
    bracketedNegation.tree.Made ∧ bracketedNegation.words.length < 7 ∧
    ∃ group inner, Parser.openGroup bracketedNegation.words = .ok group ∧
      Parser.enter 128 group.contents = .ok inner ∧
      BareColumn inner { bracketedNegation with words := group.contents } [] := by
  have refused : (Rule.condition.builder.on { room := 128 } negatedName).1 =
      .error (Grammar.noComparison []) := by
    decide +kernel
  have noColumn : (Rule.column.builder.on { room := 128 } negatedName).1 =
      .error (.expected .syntactic "a column" negatedName.words) := by
    decide +kernel
  have enough : bracketedNegation.words.length < 7 := by decide +kernel
  have given : ((bracketedCondition (rules 7)).on { room := 128 } bracketedNegation).1 =
      .error (Grammar.noComparison []) := by
    decide +kernel
  obtain ⟨behind, bare, same⟩ := (no_condition_iff 128 .new _).1.1 ⟨refused, rfl⟩
  obtain ⟨group, inner, opened, entered, ⟨-, ⟨⟩⟩ | ⟨-, rest, bareInside, sameInside⟩⟩ :=
    ((no_condition_iff 128 .new _).2 7 enough).1 ⟨given, rfl⟩
  have nothing {words : Words} (same : Grammar.noComparison [] = Grammar.noComparison words) :
      words = [] := by
    cases words with
    | nil => rfl
    | cons word words => cases same
  rw [nothing same] at bare
  rw [nothing sameInside] at bareInside
  exact ⟨.new, bare, noColumn, .new, enough, group, inner, opened, entered, bareInside⟩

end Build

end SelectTree
