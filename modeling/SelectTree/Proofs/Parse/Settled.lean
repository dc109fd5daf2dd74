/-
Module: SelectTree.Proofs.Parse.Settled
Purpose: what is wrong inside of a settled shape is never that the words are not a condition.
Main exports: Builder.ComesTo, Builder.ComesTo.passes, settled_for_good
-/
import SelectTree.Proofs.Parse.Refused

namespace SelectTree

open Build

/-! ### Errors on their way out -/

/-- A run of the builder comes to a run of the inner one, through whatever surrounds it. -/
inductive Builder.ComesTo {α : Type} (inner : Builder α) (limits : Limits)
    (workspace : Workspace) : {β : Type} → Builder β → Limits → Workspace → Prop where
  | itself : ComesTo inner limits workspace inner limits workspace
  | first {β γ : Type} {first : Builder β} {next : β → Builder γ} {around : Limits}
      {outside : Workspace} :
      ComesTo inner limits workspace first around outside →
      ComesTo inner limits workspace (first >>= next) around outside
  | next {β γ : Type} {first : Builder β} {next : β → Builder γ} {around : Limits}
      {outside middle : Workspace} {value : β} :
      first.on around outside = (.ok value, middle) →
      ComesTo inner limits workspace (next value) around middle →
      ComesTo inner limits workspace (first >>= next) around outside
  | within {β : Type} {body : Builder β} {range : Words} {around : Limits} {outside : Workspace} :
      ComesTo inner limits workspace body around { outside with words := range } →
      ComesTo inner limits workspace (Builder.within range body) around outside
  | bracketed {β : Type} {body : Word → Builder β} {group : Words.Group} {room : Nat}
      {around : Limits} {outside : Workspace} :
      Parser.openGroup outside.words = .ok group →
      Parser.enter around.room group.contents = .ok room →
      ComesTo inner limits workspace (body group.opening) { around with room }
        { outside with words := group.contents } →
      ComesTo inner limits workspace (Builder.bracketed body) around outside
  | nested {β : Type} {body : Builder β} {around : Limits} {outside : Workspace} :
      Parser.checkNesting around.room (outside.nesting + 1) outside.words = .ok () →
      ComesTo inner limits workspace body around { outside with nesting := outside.nesting + 1 } →
      ComesTo inner limits workspace (Builder.nested body) around outside
  | attempt {β : Type} {body : Builder β} {around : Limits} {outside : Workspace} :
      ComesTo inner limits workspace body around outside →
      ComesTo inner limits workspace (Builder.attempt body) around outside
  | committed {β : Type} {body : Builder β} {around : Limits} {outside : Workspace} :
      ComesTo inner limits workspace body around outside →
      ComesTo inner limits workspace (Builder.committed body) around outside

/-- Whatever surrounds it, an error that does not say that the words are not a condition is passed
on as it is. -/
theorem Builder.ComesTo.passes {α β : Type} {inner : Builder α} {whole : Builder β}
    {limits around : Limits} {workspace outside : Workspace}
    (comes : ComesTo inner limits workspace whole around outside) {fault : Fault}
    (refused : (inner.on limits workspace).1 = .error fault)
    (condition : fault.kind ≠ .notACondition) : (whole.on around outside).1 = .error fault := by
  induction comes with
  | itself => exact refused
  | first _ ih =>
      rw [on_bind]
      split
      · next ran => simp [ran] at ih
      · next ran => simpa [ran] using ih
  | next ran _ ih =>
      rw [on_bind, ran]
      exact ih
  | within _ ih =>
      rw [on_within]
      exact ih
  | bracketed opened entered _ ih =>
      rw [on_bracketed, opened]
      simp only [entered]
      exact ih
  | nested checked _ ih =>
      rw [on_nested, checked]
      exact ih
  | attempt _ ih =>
      rw [on_attempt]
      split
      · next ran => simp [ran] at ih
      · next other behind ran =>
          obtain rfl : other = fault := by simpa [ran] using ih
          rw [if_neg condition]
  | committed _ ih =>
      rw [on_committed]
      split
      · next ran => simp [ran] at ih
      · next other behind ran =>
          obtain rfl : other = fault := by simpa [ran] using ih
          rw [Fault.committed, if_neg condition]

theorem Fault.kind_committed (fault : Fault) : fault.committed.kind ≠ .notACondition := by
  by_cases condition : fault.kind = .notACondition
  · rw [Fault.committed, if_pos condition]
    exact ErrorKind.noConfusion
  · rwa [Fault.committed, if_neg condition]

/-- Whatever the body is and does. -/
theorem Parser.kind_of_committed {α : Type} {body : Parser α} {scope : Scope} {words : Words}
    {fault : Fault} (refused : Parser.committed body scope words = .error fault) :
    fault.kind ≠ .notACondition := by
  rw [committed_apply] at refused
  split at refused
  · cases refused
  · cases refused
    exact Fault.kind_committed _

/-! ### Settled shapes -/

/-- A source is refused for its words not being a condition only if the rule refuses them so. -/
theorem kind_of_refused {entry : EntryPoint} {source : String} {options : Options} {hooks : Hooks}
    {error : ParseError} (refused : parse entry source options hooks = .error (.refused error))
    (settled : ∀ fault,
      entry.rule.parser { room := options.maxDepth, hooks } (TokenStream.ofString source).words =
        .error fault → fault.kind ≠ .notACondition) : error.kind ≠ .notACondition := by
  rcases exists_of_refused refused with lexical | ⟨fault, found, rfl⟩
  · simp [lexical]
  · rw [Fault.kind_report]
    rcases Rule.phrase_error found with inside | ⟨incomplete, -⟩
    · exact settled fault inside
    · simp [incomplete]

/-- A statement and a select block are never refused for their words not being a condition, whatever
the hooks are, and neither is a column where there are no hooks.  The same holds of every rule that
is a settled shape; and whatever surrounds such a rule, an error inside comes out as it is, so no
reading is given up for it. -/
theorem settled_for_good :
    (∀ (entry : EntryPoint) (source : String) (options : Options) (hooks : Hooks)
        (error : ParseError),
      entry = .statement ∨ entry = .select ∨ (entry = .column ∧ hooks = {}) →
      parse entry source options hooks = .error (.refused error) →
      error.kind ≠ .notACondition) ∧
    ∀ (procedure : Procedure) (depth room : Nat) (workspace : Workspace) (fault : Fault),
      procedure.isSettled = true →
      ((procedure.builder (rules depth)).on { room } workspace).1 = .error fault →
      fault.kind ≠ .notACondition ∧
        ∀ {β : Type} (whole : Builder β) (around : Limits) (outside : Workspace),
          Builder.ComesTo (procedure.builder (rules depth)) { room } workspace whole around
            outside →
          (whole.on around outside).1 = .error fault := by
  refine ⟨?sources, ?rules⟩
  case sources =>
    rintro entry source options hooks error which refused
    refine kind_of_refused refused fun fault found => ?_
    rcases which with rfl | rfl | ⟨rfl, rfl⟩
    · exact Parser.kind_of_committed found
    · exact Parser.kind_of_committed found
    · exact (Rule.plain_of_parser found).kind_ne
  case rules =>
    -- A settled rule reports nothing that an `attempt` around it would give up for.
    intro procedure depth room workspace fault isSettled refused
    have plain := procedure.plain_of_on rfl (Prod.ext refused rfl)
    rw [isSettled] at plain
    exact ⟨plain.kind_ne, fun _ _ _ comes => comes.passes refused plain.kind_ne⟩

/-- A `CASE` in brackets whose branch has no condition. -/
def bracketedBareCase : Workspace :=
  { words := (TokenStream.ofString "(CASE WHEN a THEN 1 END)").words, nesting := 0, tree := .new }

/-- Neither `IIF` nor `CASE` is given up where a condition is missing. -/
theorem settled_for_good_bareCase :
    (∃ error, parse .column "IIF(a, 1, 2)" {} {} = .error (.refused error) ∧
      error.message = "expected a comparison, found end of input" ∧
      error.kind ≠ .notACondition) ∧
    ∃ fault, fault.cause = .expected "a comparison" ∧ fault.kind ≠ .notACondition ∧
      ((Builder.attempt (Builder.bracketed fun _ => caseOperand (rules 6))).on { room := 1 }
        bracketedBareCase).1 = .error fault := by
  refine ⟨?column, ?case⟩
  case column =>
    have refused : parse .column "IIF(a, 1, 2)" {} {} = .error (.refused
        { kind := .syntactic, message := "expected a comparison, found end of input",
          line := none, column := none, tokenText := none }) := by
      decide +kernel
    exact ⟨_, refused, rfl,
      settled_for_good.1 .column _ _ _ _ (.inr (.inr ⟨rfl, rfl⟩)) refused⟩
  case case =>
    let words := bracketedBareCase.words
    let group : Words.Group :=
      { opening := words.headD default, contents := (words.drop 1).take 6, behind := [] }
    let found : Fault :=
      { kind := .syntactic, cause := .expected "a comparison", place := words[4]? }
    have opened : Parser.openGroup words = .ok group := by
      decide +kernel
    have refused : ((caseOperand (rules 6)).on { room := 0 }
        { bracketedBareCase with words := group.contents }).1 = .error found := by
      decide +kernel
    obtain ⟨kind, passes⟩ := settled_for_good.2 .caseOperand 6 0 _ found rfl refused
    exact ⟨found, rfl, kind, passes _ { room := 1 } bracketedBareCase
      (.attempt (.bracketed opened rfl .itself))⟩

end SelectTree
