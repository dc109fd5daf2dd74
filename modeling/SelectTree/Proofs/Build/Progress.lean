/-
Module: SelectTree.Proofs.Build.Progress
Purpose: every rule comes to an end, and comes forward where it reads something.
Main exports: Build.agree_levels, Build.Procedure.assembled, Build.Routine.assembled,
  Build.Routine.progress, Build.Loop, Build.Loop.stable, Rule.procedure, Build.rules_progress

Rules call each other without consuming a word, and read words again that were read before.  What
counts is that a rule applies the rules inside only behind a consumed word or inside of brackets, so
the words it still has to read bound how many levels of rules there can be.
-/
import Mathlib.Logic.Function.Iterate
import SelectTree.Proofs.Build.Assembled.Query
import SelectTree.Proofs.Build.Chain
import SelectTree.Proofs.Build.Routine

namespace SelectTree

namespace Build

open SelectTree.Parser (Orderly)
open SelectTree.Grammar

/-! ### Levels of rules -/

/-- Anywhere. -/
theorem descends_anywhere : Descends fun _ _ => True where
  bracket := id
  level := fun inside _ => inside

theorem Rules.Agree.mono {rules others : Rules} {region : Nat → Nat → Prop} {bound less : Nat}
    (agree : rules.Agree others region bound) (le : less ≤ bound) :
    rules.Agree others region less :=
  fun inner limits workspace hookless inside fewer =>
    agree inner limits workspace hookless inside (Nat.lt_of_lt_of_le fewer le)

/-- What stands below as many levels of rules as there are words is never applied. -/
theorem agree_levels (bottom : Rules) {bound depth other : Nat} (deep : bound ≤ depth)
    (alsoDeep : bound ≤ other) :
    (rules other).Agree (Rules.around^[depth] bottom) (fun _ _ => True) bound := by
  induction bound generalizing depth other with
  | zero => exact fun _ _ _ _ _ fewer => absurd fewer (Nat.not_lt_zero _)
  | succ bound ih =>
      obtain ⟨depth, rfl⟩ := Nat.exists_eq_succ_of_ne_zero (Nat.ne_zero_of_lt deep)
      obtain ⟨other, rfl⟩ := Nat.exists_eq_succ_of_ne_zero (Nat.ne_zero_of_lt alsoDeep)
      -- A rule applies the rules below to fewer words than its own, so one level less is enough.
      intro inner limits workspace hookless inside fewer
      have below := (ih (Nat.le_of_succ_le_succ deep) (Nat.le_of_succ_le_succ alsoDeep)).mono
        (Nat.le_of_lt_succ fewer)
      rw [Function.iterate_succ_apply']
      exact (assembled_around inner).same (rules_orderly other) descends_anywhere below limits
        workspace hookless inside (Nat.le_refl _)

/-- The outcome does not depend on what stands below enough levels of rules. -/
theorem Assembled.outcome_levels {α : Type} {settled : Bool} {before : Lead} {after : α → Lead}
    {body : Rules → Builder α} {bound : Nat}
    (assembled : Assembled bound settled before body after) (bottom : Rules) {depth other : Nat}
    (deep : bound ≤ depth) (alsoDeep : bound ≤ other) {limits : Limits} {workspace : Workspace}
    (hookless : limits.hooks = {}) (holds : before.Holds bound workspace.words) :
    (body (Rules.around^[depth] bottom)).on limits workspace =
      (body (rules other)).on limits workspace :=
  (assembled.same (rules_orderly other) descends_anywhere (agree_levels bottom deep alsoDeep)
    limits workspace hookless trivial holds).symm

/-! ### Rules and routines -/

namespace Procedure

/-- The rule never reports that the words are not a condition. -/
def isSettled : Procedure → Bool
  | .condition | .term | .bracketedCondition | .predicate | .relation | .source | .block _
  | .statementBody => false
  | _ => true

/-- How many of its words are consumed before the rule is entered. -/
def entered : Procedure → Nat
  | .named .. => 1
  | _ => 0

variable {bound : Nat}

/-- The rule consumes a word before it applies a rule inside. -/
def isEager : Procedure → Bool
  | .named .. | .negative | .orderItem => false
  | _ => true

theorem assembled_eager {procedure : Procedure} (eager : procedure.isEager = true) :
    Assembled bound procedure.isSettled .start (fun rules => procedure.builder rules)
      fun _ => .behind := by
  cases procedure with
  | operand => exact assembled_operand
  | negative => cases eager
  | temporalConstant => exact .leaf orderly_temporalConstant
  | named first name => cases eager
  | functionCall name => exact assembled_functionCall name
  | aggregation name function => exact assembled_aggregation name function
  | cast label lenient => exact assembled_cast label lenient
  | convert label lenient => exact assembled_convert label lenient
  | parse label lenient => exact assembled_parse label lenient
  | iif => exact assembled_iif
  | bracketOperand => exact assembled_bracketOperand
  | caseOperand => exact assembled_caseOperand
  | column => exact assembled_column
  | selectColumn => exact assembled_selectColumn assembled_column
  | orderItem => cases eager
  | window => exact assembled_window
  | condition => exact assembled_condition
  | term => exact assembled_term
  | bracketedCondition => exact assembled_bracketedCondition
  | predicate => exact assembled_predicate
  | bracketedStatement label => exact assembled_bracketedStatement label
  | relation => exact assembled_relation
  | source => exact assembled_source
  | top => exact assembled_top
  | pivot => exact assembled_pivot
  | groupBy => exact assembled_groupBy
  | groupingSets => exact assembled_groupingSets
  | functionSet function => exact assembled_functionSet function
  | orderBy => exact assembled_orderBy
  | optionHints => exact assembled_optionHints
  | block operator => exact assembled_block operator
  | select => exact assembled_select
  | cte => exact assembled_cte
  | statementBody => exact assembled_statementBody
  | statement => exact assembled_statement

/-- Behind a consumed word all rules are alike. -/
theorem assembled (procedure : Procedure) :
    Assembled bound procedure.isSettled .behind (fun rules => procedure.builder rules)
      fun _ => .behind := by
  cases eager : procedure.isEager with
  | true => exact (assembled_eager eager).onward
  | false =>
      cases procedure with
      | negative => exact assembled_negative
      | named first name => exact assembled_named first name
      | orderItem => exact assembled_orderItem
      | _ => cases eager

end Procedure

/-- How many words a routine may read: those in front, and those of a stretch of its own. -/
def Routine.reach {β : Type} (words : Words) : Routine β → Nat
  | .whole range _ => max words.length range.length
  | _ => words.length

theorem Routine.length_le_reach {β : Type} (routine : Routine β) (words : Words) :
    words.length ≤ routine.reach words := by
  cases routine with
  | whole range procedure => exact Nat.le_max_left ..
  | _ => exact Nat.le_refl _

/-- How many of its words are consumed before the routine is entered. -/
def Routine.entered {β : Type} : Routine β → Nat
  | .single procedure | .commaList procedure => procedure.entered
  | _ => 0

/-- With this value, words in front are consumed.  What may be missing has no value then, a stretch
of other words is not in front, and only no words at all have no segments. -/
def Routine.consumes : {β : Type} → Routine β → β → Bool
  | _, .single _, _ => true
  | _, .whole _ _, _ => false
  | _, .segments _, items => !items.isEmpty
  | _, .commaList _, _ => true
  | _, .membership _ _, _ => true
  | _, .aliasName _, called => called.isSome
  | _, .joinType, type => type.isSome
  | _, .setOperator, operator => operator.isSome
  | _, .frameBound, _ => true

theorem Routine.assembled {β : Type} (routine : Routine β) {words : Words} {bound : Nat}
    (fits : routine.reach words < bound) :
    Assembled bound false .behind (fun rules => routine.builder rules) fun _ => .behind := by
  cases routine with
  | single procedure => exact procedure.assembled.unsettled
  | whole range procedure =>
      have inside : Lead.behind.Holds bound range := Nat.lt_of_le_of_lt (Nat.le_max_right ..) fits
      exact .within inside procedure.assembled.unsettled.wholly
  | segments item => exact item.assembled.unsettled.segments
  | commaList item => exact item.assembled.unsettled.commaList
  | membership column negated => exact (assembled_membership column negated).onward
  | aliasName allowString => exact .read (Orderly.aliasName allowString).onward
  | joinType => exact .read orderly_joinType.onward
  | setOperator => exact .read orderly_setOperator.onward
  | frameBound => exact .read orderly_frameBound.onward

/-! ### Consuming words -/

/-- With a value that tells so, the builder leaves fewer words than it found, where so many of its
words were consumed before. -/
def Advances {α : Type} (entered : Nat) (consumes : α → Bool) (builder : Builder α) : Prop :=
  ∀ (limits : Limits) (workspace behind : Workspace) (value : α), limits.hooks = {} →
    builder.on limits workspace = (.ok value, behind) → consumes value = true →
    behind.words.length < workspace.words.length + entered

namespace Advances

variable {α β : Type} {entered : Nat} {rules : Rules}

/-- A builder that says that it has consumed a word. -/
theorem of_assembled {after : α → Lead} {body : Rules → Builder α} {consumes : α → Bool}
    (assembled : ∀ bound, Assembled bound false .start body after) (orderly : rules.Orderly)
    (tells : ∀ value, consumes value = true → after value = .behind) :
    Advances 0 consumes (body rules) := by
  intro limits workspace behind value hookless ran consumed
  have start : Lead.start.Holds workspace.words.length workspace.words := Nat.le_refl _
  have reached := (assembled _).reaches orderly limits workspace hookless start
  rw [ran] at reached
  have holds := reached.holds value rfl
  rw [tells value consumed] at holds
  exact holds

/-- A builder whose first word is consumed before. -/
theorem of_entered {after : α → Lead} {body : Rules → Builder α} {consumes : α → Bool}
    (assembled : ∀ bound, Assembled bound false .behind body after) (orderly : rules.Orderly) :
    Advances 1 consumes (body rules) := by
  intro limits workspace behind value hookless ran _
  have front : Lead.behind.Holds (workspace.words.length + 1) workspace.words := Nat.lt_succ_self _
  have reached := (assembled _).reaches orderly limits workspace hookless front
  rw [ran] at reached
  exact Nat.lt_succ_of_le reached.proceeds.words.length_le

/-- A part that consumes words, and anything that goes forward. -/
theorem bind {first : Builder α} {next : Rules → α → Builder β} {consumes : β → Bool}
    {after : β → Lead} (advances : Advances entered (fun _ => true) first)
    (assembled : ∀ value bound,
      Assembled bound false .behind (fun rules => next rules value) after)
    (orderly : rules.Orderly) : Advances entered consumes (first >>= next rules) := by
  intro limits workspace behind value hookless ran _
  rw [Builder.on_bind] at ran
  rcases one : first.on limits workspace with ⟨fault | found, middle⟩ <;> rw [one] at ran
  · cases ran
  · have fewer := advances limits workspace middle found hookless one rfl
    have left : Lead.behind.Holds (middle.words.length + 1) middle.words := Nat.lt_succ_self _
    have reached := (assembled found _).reaches orderly limits middle hookless left
    simp only at ran
    rw [ran] at reached
    exact Nat.lt_of_le_of_lt reached.proceeds.words.length_le fewer

end Advances

/-- Each rule leaves fewer words than it found. -/
theorem advances_rules (depth : Nat) (inner : Inner) :
    Advances 0 (fun _ => true) ((rules depth).apply inner) := by
  cases depth with
  | zero =>
      intro limits workspace behind value _ ran
      cases inner <;> cases ran
  | succ depth =>
      exact .of_assembled (fun bound => (assembled_around inner).unsettled) (rules_orderly depth)
        fun _ _ => rfl

theorem advances_orderItem (depth : Nat) :
    Advances 0 (fun _ => true) (orderItem (rules depth)) := by
  have behindColumn (column : NodeId) (bound : Nat) : Assembled bound false .behind (fun _ => do
      let collation ← Builder.read collation
      let direction ← Builder.read sortDirection
      Builder.add (.element (.orderItem (some column) collation direction)))
      fun _ => .behind := by
    refine .reads orderly_collation.onward fun collation => ?_
    exact .reads orderly_sortDirection.onward fun _ => .add _
  exact (advances_rules depth .column).bind behindColumn (rules_orderly depth)

theorem advances_negative (depth : Nat) :
    Advances 0 (fun _ => true) (negative (rules depth)) := by
  have behindOperand (operand : NodeId) (bound : Nat) : Assembled bound false .behind
      (fun _ => Builder.add (.column (.negated (some operand)))) fun _ => .behind :=
    .add _
  have operand : Advances 0 (fun _ => true) (do
      let operand ← (rules depth).operand
      Builder.add (.column (.negated (some operand)))) :=
    (advances_rules depth .operand).bind behindOperand (rules_orderly depth)
  rintro limits ⟨words, nesting, tree⟩ behind value hookless ran told
  rcases words with _ | ⟨⟨kind, text, glued, index⟩, rest⟩
  · exact operand limits _ behind value hookless ran told
  · cases kind with
    | integer count =>
        cases ran
        exact Nat.lt_succ_self _
    | decimal text =>
        cases ran
        exact Nat.lt_succ_self _
    | _ => exact operand limits _ behind value hookless ran told

theorem Procedure.advances (procedure : Procedure) (depth : Nat) :
    Advances procedure.entered (fun _ => true) (procedure.builder (rules depth)) := by
  cases eager : procedure.isEager with
  | true =>
      have notEntered : procedure.entered = 0 := by
        cases procedure <;> first | rfl | cases eager
      rw [notEntered]
      exact .of_assembled (fun bound => (assembled_eager eager).unsettled) (rules_orderly depth)
        fun _ _ => rfl
  | false =>
      cases procedure with
      | negative => exact advances_negative depth
      | named first name =>
          exact .of_entered (fun bound => assembled_named first name) (rules_orderly depth)
      | orderItem => exact advances_orderItem depth
      | _ => cases eager

/-- Stretches of words are read aside. -/
theorem words_of_eachWholly {α : Type} {item : Builder α} {segments : List Words} {items : List α}
    {limits : Limits} {workspace behind : Workspace}
    (ran : (Builder.eachWholly item segments).on limits workspace = (.ok items, behind)) :
    behind.words = workspace.words := by
  induction segments generalizing workspace items with
  | nil =>
      cases ran
      rfl
  | cons segment segments ih =>
      obtain ⟨first, middle, one, rest⟩ := Builder.on_bind_ok_iff.1 ran
      obtain ⟨others, last, more, ended⟩ := Builder.on_bind_ok_iff.1 rest
      cases ended
      have aside : middle.words = workspace.words := by
        rw [Builder.on_within] at one
        rw [← (Prod.mk.inj one).2]
      rw [ih more, aside]

/-- Segments are found only where words are, and then all words are consumed. -/
theorem advances_segments {α : Type} (item : Builder α) :
    Advances 0 (fun items => !items.isEmpty) (Builder.segments item) := by
  intro limits workspace behind items hookless ran found
  obtain ⟨_, _, ⟨⟩, reads⟩ := Builder.on_bind_ok_iff.1 ran
  obtain ⟨_, middle, each, skips⟩ := Builder.on_bind_ok_iff.1 reads
  cases skips
  have same := words_of_eachWholly each
  cases words : workspace.words with
  | nil =>
      rw [words] at each
      cases each
      cases found
  | cons word rest => simp [same, words]

theorem advances_commaList (item : Procedure) (depth : Nat) :
    Advances item.entered (fun _ => true) (Builder.commaList (item.builder (rules depth))) := by
  have others (first : NodeId) (bound : Nat) : Assembled bound false .behind (fun rules => do
      let others ← Builder.many (Builder.commaItem (item.builder rules))
      return (first, others)) fun _ => .behind :=
    .bind (.many (Assembled.commaItem item.assembled.unsettled).onward) fun _ =>
      .pure _ (.inr rfl)
  exact (item.advances depth).bind others (rules_orderly depth)

theorem Routine.advances {β : Type} (routine : Routine β) (depth : Nat) :
    Advances routine.entered routine.consumes (routine.builder (rules depth)) := by
  have orderly := rules_orderly depth
  have perhaps {α : Type} (found : Option α) (told : found.isSome = true) :
      Lead.ofFound found = .behind := by
    cases found with
    | none => cases told
    | some found => rfl
  cases routine with
  | single procedure => exact procedure.advances depth
  | whole range procedure => exact fun _ _ _ _ _ _ consumed => nomatch consumed
  | segments item => exact advances_segments _
  | commaList item => exact advances_commaList item depth
  | membership column negated =>
      exact .of_assembled (fun bound => assembled_membership column negated) orderly fun _ _ => rfl
  | aliasName allowString =>
      exact .of_assembled (fun bound => .read (Orderly.aliasName allowString)) orderly perhaps
  | joinType => exact .of_assembled (fun bound => .read orderly_joinType) orderly perhaps
  | setOperator => exact .of_assembled (fun bound => .read orderly_setOperator) orderly perhaps
  | frameBound =>
      exact .of_assembled (fun bound => .read orderly_frameBound) orderly fun _ _ => rfl

/-! ### Loops -/

/-- A loop that is run for a bounded number of rounds gives the same for all bounds that are no less
than a measure, if every round that goes on makes the measure less and at zero none goes on. -/
theorem stable_of_step {σ ω : Type} (measure : σ → Nat) (run : Nat → σ → ω)
    (ends : ∀ state count, measure state = 0 → run count state = run 0 state)
    (step : ∀ state count other,
      (∀ next, measure next < measure state → run count next = run other next) →
      run (count + 1) state = run (other + 1) state)
    (state : σ) {count other : Nat} (enough : measure state ≤ count)
    (alsoEnough : measure state ≤ other) : run count state = run other state := by
  induction count generalizing state other with
  | zero => exact (ends state other (Nat.le_zero.1 enough)).symm
  | succ count ih =>
      cases other with
      | zero => exact ends state (count + 1) (Nat.le_zero.1 alsoEnough)
      | succ other => exact step state count other fun next less => ih next (by omega) (by omega)

/-- A builder that finds nothing where no words are. -/
def Idle {α : Type} (item : Builder (Option α)) : Prop :=
  ∀ (limits : Limits) (nesting : Nat) (tree : Tree),
    item.on limits { words := [], nesting, tree } = (.ok none, { words := [], nesting, tree })

section Stable

variable {α : Type} {rules : Rules} {limits : Limits} {workspace : Workspace} {count : Nat}

theorem many_stable {item : Rules → Builder (Option α)}
    (assembled : ∀ bound, Assembled bound false .start item Lead.ofFound)
    (idle : Idle (item rules)) (orderly : rules.Orderly) (hookless : limits.hooks = {})
    (enough : workspace.words.length ≤ count) :
    (Builder.manyUpTo (item rules) count).on limits workspace =
      (Builder.many (item rules)).on limits workspace := by
  refine stable_of_step (fun workspace : Workspace => workspace.words.length)
    (fun count => (Builder.manyUpTo (item rules) count).on limits) ?ends ?step workspace enough
    (Nat.le_refl _)
  case ends =>
    rintro ⟨words, nesting, tree⟩ count none
    obtain rfl := List.eq_nil_of_length_eq_zero none
    cases count with
    | zero => rfl
    | succ count =>
        simp only [Builder.manyUpTo, Builder.on_bind, idle limits nesting tree]
  case step =>
    intro workspace count other same
    have start : Lead.start.Holds workspace.words.length workspace.words := Nat.le_refl _
    have reached := (assembled _).reaches orderly limits workspace hookless start
    rw [Builder.manyUpTo, Builder.manyUpTo, Builder.on_bind, Builder.on_bind]
    rcases ran : (item rules).on limits workspace with ⟨fault | _ | first, behind⟩
    · rfl
    · rfl
    · rw [ran] at reached
      simp only [Builder.on_bind, same behind (reached.holds _ rfl)]

theorem modifiers_stable (orderly : rules.Orderly) (hookless : limits.hooks = {})
    (enough : workspace.words.length ≤ count) :
    (modifiersUpTo rules count {}).on limits workspace =
      (modifiers rules).on limits workspace := by
  refine stable_of_step (fun state : Workspace × Modifiers => state.1.words.length)
    (fun count state => (modifiersUpTo rules count state.2).on limits state.1) ?ends ?step
    (workspace, {}) enough (Nat.le_refl _)
  case ends =>
    rintro ⟨⟨words, nesting, tree⟩, ⟨_ | top, distinct⟩⟩ count none <;>
      obtain rfl := List.eq_nil_of_length_eq_zero none <;> cases count <;> rfl
  case step =>
    rintro ⟨workspace, modifiers⟩ count other same
    have assembled : Assembled workspace.words.length true .start
        (fun rules => modifier rules modifiers) Lead.ofFound := assembled_modifier modifiers
    have start : Lead.start.Holds workspace.words.length workspace.words := Nat.le_refl _
    have reached := assembled.reaches orderly limits workspace hookless start
    dsimp only
    rw [modifiersUpTo, modifiersUpTo, Builder.on_bind, Builder.on_bind]
    rcases ran : (modifier rules modifiers).on limits workspace with ⟨fault | _ | next, behind⟩
    · rfl
    · rfl
    · rw [ran] at reached
      exact same (behind, modifiers.add next) (reached.holds _ rfl)

/-- A loop over words that adds no nodes. -/
theorem read_many_stable {item : Parser (Option α)}
    (forward : ∀ bound, Orderly bound .start item Lead.ofFound)
    (idle : ∀ scope, item scope [] = .ok (none, [])) (hookless : limits.hooks = {})
    (enough : workspace.words.length ≤ count) :
    (Builder.read (Parser.manyUpTo item count)).on limits workspace =
      (Builder.read (Parser.many item)).on limits workspace := by
  have without : (limits.scope workspace.nesting).hooks = {} := hookless
  generalize isScope : limits.scope workspace.nesting = scope at without
  have same : Parser.manyUpTo item count scope workspace.words =
      Parser.manyUpTo item workspace.words.length scope workspace.words := by
    refine stable_of_step (fun words : Words => words.length)
      (fun count => Parser.manyUpTo item count scope) ?ends ?step workspace.words enough
      (Nat.le_refl _)
    case ends =>
      intro words count none
      obtain rfl := List.eq_nil_of_length_eq_zero none
      cases count with
      | zero => rfl
      | succ count =>
          simp only [Parser.manyUpTo, Parser.bind_apply, idle scope]
    case step =>
      intro words count other same
      have start : Lead.start.Holds words.length words := Nat.le_refl _
      rw [Parser.manyUpTo, Parser.manyUpTo, Parser.bind_apply, Parser.bind_apply]
      rcases read : item scope words with fault | ⟨_ | first, rest⟩
      · rfl
      · rfl
      · have fewer := ((forward _).of_ok without start read).2
        simp only [Parser.bind_apply, same rest fewer]
  rw [Builder.on_read, Builder.on_read, isScope, same]
  rfl

theorem hints_stable {words : Words} (enough : words.length ≤ count) :
    Words.commaTextsUpTo count words = Words.commaTexts words := by
  refine stable_of_step (fun words : Words => words.length) Words.commaTextsUpTo ?ends ?step words
    enough (Nat.le_refl _)
  case ends =>
    intro words count none
    obtain rfl := List.eq_nil_of_length_eq_zero none
    cases count <;> rfl
  case step =>
    intro words count other same
    cases words with
    | nil => rfl
    | cons word words =>
        have fewer : (Words.textUntilComma (word :: words)).2.length < (word :: words).length :=
          Nat.lt_succ_of_le (Words.length_textUntilComma_le (word :: words))
        exact congrArg ((Words.textUntilComma (word :: words)).1 :: ·) (same _ fewer)

end Stable

/-- The loops of the grammar. -/
inductive Loop : Type → Type where
  | operations : Loop (List NodeId)
  | links : Loop (List NodeId)
  | joins : Loop (List NodeId)
  | searchedBranches : Loop (List NodeId)
  | simpleBranches : Loop (List NodeId)
  | chainedBlocks : Loop (List NodeId)
  | commas (item : Procedure) : Loop (List NodeId)
  | groupElements : Loop (List (Bool × NodeId))
  | modifiers : Loop Modifiers
  | nameParts : Loop (List Identifier)
  | tableParts : Loop (List Identifier)
  | hints : Loop (List String)

/-- A loop as the grammar runs it. -/
def Loop.builder (rules : Rules) : {β : Type} → Loop β → Builder β
  | _, .operations => Builder.many (operation rules)
  | _, .links => Builder.many (link rules)
  | _, .joins => Builder.many (join rules)
  | _, .searchedBranches => Builder.many (searchedBranch rules)
  | _, .simpleBranches => Builder.many (simpleBranch rules)
  | _, .chainedBlocks => Builder.many (chainedBlock rules)
  | _, .commas item => Builder.many (Builder.commaItem (item.builder rules))
  | _, .groupElements => Builder.many (Builder.commaItem (groupElement rules))
  | _, .modifiers => Build.modifiers rules
  | _, .nameParts => Builder.read (Parser.many nextPart)
  | _, .tableParts => Builder.read (Parser.many tablePart)
  | _, .hints => do return Words.commaTexts (← Builder.read Parser.remaining)

/-- A loop that is run for so many rounds and no more. -/
def Loop.upTo (rules : Rules) (count : Nat) : {β : Type} → Loop β → Builder β
  | _, .operations => Builder.manyUpTo (operation rules) count
  | _, .links => Builder.manyUpTo (link rules) count
  | _, .joins => Builder.manyUpTo (join rules) count
  | _, .searchedBranches => Builder.manyUpTo (searchedBranch rules) count
  | _, .simpleBranches => Builder.manyUpTo (simpleBranch rules) count
  | _, .chainedBlocks => Builder.manyUpTo (chainedBlock rules) count
  | _, .commas item => Builder.manyUpTo (Builder.commaItem (item.builder rules)) count
  | _, .groupElements => Builder.manyUpTo (Builder.commaItem (groupElement rules)) count
  | _, .modifiers => modifiersUpTo rules count {}
  | _, .nameParts => Builder.read (Parser.manyUpTo nextPart count)
  | _, .tableParts => Builder.read (Parser.manyUpTo tablePart count)
  | _, .hints => do return Words.commaTextsUpTo count (← Builder.read Parser.remaining)

/-- Every loop has come to its end after as many rounds as there are words. -/
theorem Loop.stable {β : Type} (loop : Loop β) (depth : Nat) {limits : Limits}
    (hookless : limits.hooks = {}) {workspace : Workspace} {count : Nat}
    (enough : workspace.words.length ≤ count) :
    (loop.upTo (rules depth) count).on limits workspace =
      (loop.builder (rules depth)).on limits workspace := by
  have orderly := rules_orderly depth
  cases loop with
  | operations =>
      exact many_stable (fun _ => assembled_operation) (fun _ _ _ => rfl) orderly hookless enough
  | links =>
      exact many_stable (fun _ => assembled_link) (fun _ _ _ => rfl) orderly hookless enough
  | joins =>
      exact many_stable (fun _ => assembled_join) (fun _ _ _ => rfl) orderly hookless enough
  | searchedBranches =>
      exact many_stable (fun _ => assembled_searchedBranch) (fun _ _ _ => rfl) orderly hookless
        enough
  | simpleBranches =>
      exact many_stable (fun _ => assembled_simpleBranch) (fun _ _ _ => rfl) orderly hookless
        enough
  | chainedBlocks =>
      exact many_stable (fun _ => assembled_chainedBlock) (fun _ _ _ => rfl) orderly hookless
        enough
  | commas item =>
      exact many_stable (fun _ => .commaItem item.assembled.unsettled) (fun _ _ _ => rfl) orderly
        hookless enough
  | groupElements =>
      exact many_stable (fun _ => .commaItem assembled_groupElement) (fun _ _ _ => rfl) orderly
        hookless enough
  | modifiers => exact modifiers_stable orderly hookless enough
  | nameParts => exact read_many_stable (fun _ => orderly_nextPart) (fun _ => rfl) hookless enough
  | tableParts => exact read_many_stable (fun _ => orderly_tablePart) (fun _ => rfl) hookless enough
  | hints =>
      change (Except.ok (Words.commaTextsUpTo count workspace.words), workspace) =
        (Except.ok (Words.commaTexts workspace.words), workspace)
      rw [hints_stable enough]

/-! ### All rules together -/

/-- What a routine does never depends on what stands below as many levels of rules as it has words
to read.  It never goes back behind the place where it began, and with a value it is ahead of it. -/
theorem Routine.progress {β : Type} (routine : Routine β) (room : Nat) (workspace : Workspace) :
    let outcome := (routine.builder (rules (routine.reach workspace.words + 1))).on { room }
      workspace
    (∀ bottom depth, routine.reach workspace.words < depth →
      (routine.builder (Rules.around^[depth] bottom)).on { room } workspace = outcome) ∧
    outcome.2.words <:+ workspace.words ∧
    ∀ value, outcome.1 = .ok value → routine.consumes value = true →
      outcome.2.words.length < workspace.words.length + routine.entered := by
  have fits : routine.reach workspace.words < routine.reach workspace.words + 1 :=
    Nat.lt_succ_self _
  have front : Lead.behind.Holds (routine.reach workspace.words + 1) workspace.words :=
    Nat.lt_succ_of_le (routine.length_le_reach _)
  have assembled := routine.assembled fits
  refine ⟨?levels, ?forward, ?consumes⟩
  case levels =>
    intro bottom depth deep
    exact assembled.outcome_levels bottom deep (Nat.le_refl _) rfl front
  case forward =>
    exact (assembled.reaches (rules_orderly _) { room } workspace rfl front).proceeds.words
  case consumes =>
    intro value isValue consumed
    exact routine.advances _ { room } workspace _ value rfl (Prod.ext isValue rfl) consumed

end Build

/-- A rule that may be applied by itself, among all rules. -/
def Rule.procedure : Rule → Build.Procedure
  | .selectColumn => .selectColumn
  | .column => .column
  | .operand => .operand
  | .bracketOperand => .bracketOperand
  | .condition => .condition
  | .relation => .relation
  | .statement => .statement
  | .select => .select
  | .top => .top
  | .pivot => .pivot
  | .groupBy => .groupBy
  | .orderBy => .orderBy
  | .orderItem => .orderItem
  | .window => .window
  | .optionHints => .optionHints

theorem Rule.buildStep_eq (rule : Rule) (rules : Build.Rules) :
    rule.buildStep rules = rule.procedure.builder rules := by
  cases rule <;> rfl

/-- No word of a rule that may be applied by itself is consumed before. -/
theorem Rule.entered_procedure (rule : Rule) : rule.procedure.entered = 0 := by
  cases rule <;> rfl

namespace Build

theorem on_deeply {α : Type} (rule : Rules → Builder α) (limits : Limits) (workspace : Workspace) :
    (deeply rule).on limits workspace =
      (rule (rules (workspace.words.length + 1))).on limits workspace := by
  rw [deeply, Builder.on_bind, Builder.on_read]
  rfl

/-- Whatever the words are and however much room there is for brackets: what a rule does never
depends on what stands below as many levels of rules as it has words to read, so it ends with a
value or with a fault of its own.  It never goes back behind the place where it began, and with a
value it is ahead of it.  The same holds of the parts of the rules, as far as they find something.
Every loop has come to its end after as many rounds as there are words. -/
theorem rules_progress (room : Nat) (workspace : Workspace) :
    (∀ rule : Rule,
      let outcome := rule.builder.on { room } workspace
      (∀ bottom depth, workspace.words.length < depth →
        (rule.buildStep (Rules.around^[depth] bottom)).on { room } workspace = outcome) ∧
      outcome.2.words <:+ workspace.words ∧
      ∀ id, outcome.1 = .ok id → outcome.2.words.length < workspace.words.length) ∧
    (∀ {β : Type} (routine : Routine β),
      let outcome := (routine.builder (rules (routine.reach workspace.words + 1))).on { room }
        workspace
      (∀ bottom depth, routine.reach workspace.words < depth →
        (routine.builder (Rules.around^[depth] bottom)).on { room } workspace = outcome) ∧
      outcome.2.words <:+ workspace.words ∧
      ∀ value, outcome.1 = .ok value → routine.consumes value = true →
        outcome.2.words.length < workspace.words.length + routine.entered) ∧
    ∀ {β : Type} (loop : Loop β) (depth count : Nat), workspace.words.length ≤ count →
      (loop.upTo (rules depth) count).on { room } workspace =
        (loop.builder (rules depth)).on { room } workspace := by
  refine ⟨fun rule => ?_, fun routine => routine.progress room workspace,
    fun loop depth count enough => loop.stable depth rfl enough⟩
  have progress := (Routine.single rule.procedure).progress room workspace
  simp only [Rule.builder, on_deeply, rule.buildStep_eq]
  obtain ⟨levels, forward, consumes⟩ := progress
  refine ⟨levels, forward, fun id isValue => ?_⟩
  have fewer := consumes id isValue rfl
  rwa [Routine.entered, rule.entered_procedure] at fewer

/-- The words `a + 1 b`. -/
def sumBeforeName : Workspace :=
  { words := (TokenStream.ofString "a + 1 b").words, nesting := 0, tree := .new }

/-- The sum is read and the name is left, whatever stands below as many levels of rules as there
are words; and the loop over operations does not care for more rounds. -/
theorem rules_progress_sum :
    (Rule.column.builder.on { room := 0 } sumBeforeName).1 = .ok ⟨4⟩ ∧
    (Rule.column.builder.on { room := 0 } sumBeforeName).2.words <:+ sumBeforeName.words ∧
    (Rule.column.builder.on { room := 0 } sumBeforeName).2.words.length <
      sumBeforeName.words.length ∧
    (∀ bottom, (column (Rules.around^[9] bottom)).on { room := 0 } sumBeforeName =
      Rule.column.builder.on { room := 0 } sumBeforeName) ∧
    (Builder.manyUpTo (operation (rules 1)) 9).on { room := 0 } sumBeforeName =
      (Builder.many (operation (rules 1))).on { room := 0 } sumBeforeName := by
  obtain ⟨alone, -, loops⟩ := rules_progress 0 sumBeforeName
  obtain ⟨levels, forward, consumes⟩ := alone .column
  have four : sumBeforeName.words.length = 4 := by decide +kernel
  have value : (Rule.column.builder.on { room := 0 } sumBeforeName).1 = .ok ⟨4⟩ := by
    decide +kernel
  exact ⟨value, forward, consumes _ value, fun bottom => levels bottom 9 (by omega),
    loops .operations 1 9 (by omega)⟩

end Build

end SelectTree
