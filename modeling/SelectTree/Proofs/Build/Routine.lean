/-
Module: SelectTree.Proofs.Build.Routine
Purpose: all rules by which words are read while a tree grows, and what each of them does to the
  tree when it is refused.
Main exports: Adds, Build.Procedure, Build.Routine, Build.Routine.adds
-/
import SelectTree.Proofs.Build.Rule

namespace SelectTree

/-- Whatever becomes of the words, nodes are only added and all levels are left again.  If the
words are refused, the nodes adopt only each other. -/
def Adds {β : Type} (builder : Builder β) : Prop :=
  ∀ (limits : Limits) (workspace : Workspace), workspace.tree.Closed →
    ∃ left nodes,
      (builder.on limits workspace).2 =
        { words := left, nesting := workspace.nesting,
          tree := workspace.tree.attachAll nodes } ∧
      ∀ fault, (builder.on limits workspace).1 = .error fault →
        SelfContained workspace.tree.size nodes

namespace Adds

variable {α β : Type}

theorem add (node : Node) : Adds (Builder.add node) := by
  intro limits workspace _
  rw [Builder.on_add]
  refine ⟨workspace.words, [node], rfl, fun fault refused => ?_⟩
  simp at refused

theorem read (parser : Parser α) : Adds (Builder.read parser) := by
  intro limits workspace _
  rw [Builder.on_read]
  rcases parser (limits.scope workspace.nesting) workspace.words with fault | ⟨value, rest⟩
  · exact ⟨workspace.words, [], rfl, fun _ _ => .nil⟩
  · exact ⟨rest, [], rfl, fun _ _ => .nil⟩

/-- A part that reads words, and what follows. -/
theorem read_bind {parser : Parser α} {next : α → Builder β} (adds : ∀ value, Adds (next value)) :
    Adds (Builder.read parser >>= next) := by
  intro limits workspace closed
  rw [Builder.on_bind, Builder.on_read]
  rcases parser (limits.scope workspace.nesting) workspace.words with fault | ⟨value, rest⟩
  · exact ⟨workspace.words, [], rfl, fun _ _ => .nil⟩
  · exact adds value limits { workspace with words := rest } closed

/-- Brackets add what is built inside of them. -/
theorem bracketed {body : Word → Builder α} (adds : ∀ opening, Adds (body opening)) :
    Adds (Builder.bracketed body) := by
  intro limits workspace closed
  rw [Builder.on_bracketed]
  rcases Parser.openGroup workspace.words with fault | group
  · exact ⟨workspace.words, [], rfl, fun _ _ => .nil⟩
  · simp only
    rcases Parser.enter limits.room group.contents with fault | room
    · exact ⟨group.behind, [], rfl, fun _ _ => .nil⟩
    · obtain ⟨left, nodes, ran, contained⟩ := adds group.opening { limits with room }
        { workspace with words := group.contents } closed
      simp only
      refine ⟨group.behind, nodes, by rw [ran], contained⟩

end Adds

namespace Builds

variable {α β γ : Type} {builder : Builder β} {parser : Parser α} {layout : α → Layout β}
  (builds : Builds builder parser layout)

include builds

theorem adds : Adds builder := by
  intro limits workspace closed
  rcases answer : parser (limits.scope workspace.nesting) workspace.words
    with fault | ⟨value, rest⟩
  · obtain ⟨left, nodes, contained, ran⟩ := builds.on_of_error closed answer
    exact ⟨left, nodes, by rw [ran], fun _ _ => contained⟩
  · rw [builds.on_of_ok closed answer]
    exact ⟨rest, _, rfl, fun _ _ => builds.contained value workspace.tree.size⟩

/-- A rule, and what follows. -/
theorem adds_bind {next : β → Builder γ} (adds : ∀ id, Adds (next id)) :
    Adds (builder >>= next) := by
  intro limits workspace closed
  rw [Builder.on_bind]
  rcases answer : parser (limits.scope workspace.nesting) workspace.words
    with fault | ⟨value, rest⟩
  · obtain ⟨left, nodes, contained, ran⟩ := builds.on_of_error closed answer
    rw [ran]
    exact ⟨left, nodes, rfl, fun _ _ => contained⟩
  · rw [builds.on_of_ok closed answer]
    have first := builds.contained value workspace.tree.size
    obtain ⟨left, nodes, ran, contained⟩ := adds _ limits
      { words := rest, nesting := workspace.nesting, tree := workspace.tree.attachAll _ }
      (closed.attachAll _)
    refine ⟨left, _ ++ nodes, by rw [Tree.attachAll_append]; exact ran, fun fault refused => ?_⟩
    exact first.append (by simpa using contained fault refused)

end Builds

/-! ### All rules -/

namespace Build

/-- The rules that add a phrase, with what they are told about the words before. -/
inductive Procedure where
  | operand
  | negative
  | temporalConstant
  | named (first : Word) (name : Identifier)
  | functionCall (name : NamePath 2)
  | aggregation (name : Word) (function : AggregateFunction)
  | cast (label : String) (lenient : Bool)
  | convert (label : String) (lenient : Bool)
  | parse (label : String) (lenient : Bool)
  | iif
  | bracketOperand
  | caseOperand
  | column
  | selectColumn
  | orderItem
  | window
  | condition
  | term
  | bracketedCondition
  | predicate
  | bracketedStatement (label : String)
  | relation
  | source
  | top
  | pivot
  | groupBy
  | groupingSets
  | functionSet (function : GroupingFunction)
  | orderBy
  | optionHints
  | block (operator : Option SetOperator)
  | select
  | cte
  | statementBody
  | statement

/-- A rule at work, with the given rules inside. -/
def Procedure.builder (rules : Rules) : Procedure → Builder NodeId
  | .operand => Build.operand rules
  | .negative => Build.negative rules
  | .temporalConstant => Builder.leaf Grammar.temporalConstant
  | .named first name => Build.named rules first name
  | .functionCall name => Build.functionCall rules name
  | .aggregation name function => Build.aggregation rules name function
  | .cast label lenient => Build.cast rules label lenient
  | .convert label lenient => Build.convert rules label lenient
  | .parse label lenient => Build.parse rules label lenient
  | .iif => Build.iif rules
  | .bracketOperand => Build.bracketOperand rules
  | .caseOperand => Build.caseOperand rules
  | .column => Build.column rules
  | .selectColumn => Build.selectColumn (Build.column rules)
  | .orderItem => Build.orderItem rules
  | .window => Build.window rules
  | .condition => Build.condition rules
  | .term => Build.term rules
  | .bracketedCondition => Build.bracketedCondition rules
  | .predicate => Build.predicate rules
  | .bracketedStatement label => Build.bracketedStatement rules label
  | .relation => Build.relation rules
  | .source => Build.source rules
  | .top => Build.top rules
  | .pivot => Build.pivot rules
  | .groupBy => Build.groupBy rules
  | .groupingSets => Build.groupingSets rules
  | .functionSet function => Build.functionSet rules function
  | .orderBy => Build.orderBy rules
  | .optionHints => Build.optionHints
  | .block operator => Build.block rules operator
  | .select => Build.select rules
  | .cte => Build.cte rules
  | .statementBody => Build.statementBody rules
  | .statement => Build.statement rules

/-- Every rule adds what some parser recognises. -/
theorem Procedure.exists_builds (procedure : Procedure) {rules : Rules}
    {grammar : Grammar.Rules} (follow : rules.Follow grammar) :
    ∃ (form : Form) (parser : Parser (Phrase form)),
      Builds (procedure.builder rules) parser Phrase.layout := by
  cases procedure with
  | operand => exact ⟨_, _, builds_operand follow⟩
  | negative => exact ⟨_, _, builds_negative follow⟩
  | temporalConstant => exact ⟨_, _, .leaf _⟩
  | named first name => exact ⟨_, _, builds_named follow first name⟩
  | functionCall name => exact ⟨_, _, builds_functionCall follow name⟩
  | aggregation name function => exact ⟨_, _, builds_aggregation follow name function⟩
  | cast label lenient => exact ⟨_, _, builds_cast follow label lenient⟩
  | convert label lenient => exact ⟨_, _, builds_convert follow label lenient⟩
  | parse label lenient => exact ⟨_, _, builds_parse follow label lenient⟩
  | iif => exact ⟨_, _, builds_iif follow⟩
  | bracketOperand => exact ⟨_, _, builds_bracketOperand follow⟩
  | caseOperand => exact ⟨_, _, builds_caseOperand follow⟩
  | column => exact ⟨_, _, builds_column follow⟩
  | selectColumn => exact ⟨_, _, builds_selectColumn (builds_column follow)⟩
  | orderItem => exact ⟨_, _, builds_orderItem follow⟩
  | window => exact ⟨_, _, builds_window follow⟩
  | condition => exact ⟨_, _, builds_condition follow⟩
  | term => exact ⟨_, _, builds_term follow⟩
  | bracketedCondition => exact ⟨_, _, builds_bracketedCondition follow⟩
  | predicate => exact ⟨_, _, builds_predicate follow⟩
  | bracketedStatement label => exact ⟨_, _, builds_bracketedStatement follow label⟩
  | relation => exact ⟨_, _, builds_relation follow⟩
  | source => exact ⟨_, _, builds_source follow⟩
  | top => exact ⟨_, _, builds_top follow⟩
  | pivot => exact ⟨_, _, builds_pivot follow⟩
  | groupBy => exact ⟨_, _, builds_groupBy follow⟩
  | groupingSets => exact ⟨_, _, builds_groupingSets follow⟩
  | functionSet function => exact ⟨_, _, builds_functionSet follow function⟩
  | orderBy => exact ⟨_, _, builds_orderBy follow⟩
  | optionHints => exact ⟨_, _, builds_optionHints⟩
  | block operator =>
      cases operator with
      | none => exact ⟨_, _, builds_block follow .start⟩
      | some operator => exact ⟨_, _, builds_block follow (.chained operator)⟩
  | select => exact ⟨_, _, builds_select follow⟩
  | cte => exact ⟨_, _, builds_cte follow⟩
  | statementBody => exact ⟨_, _, builds_statementBody follow⟩
  | statement => exact ⟨_, _, builds_statement follow⟩

/-- Everything that reads words for the grammar: a rule by itself, a rule on a stretch of words or
on each item of a list, what is said of a column that is read before, and what adds nothing. -/
inductive Routine : Type → Type where
  | single (procedure : Procedure) : Routine NodeId
  | whole (range : Words) (procedure : Procedure) : Routine NodeId
  | segments (item : Procedure) : Routine (List NodeId)
  | commaList (item : Procedure) : Routine (NodeId × List NodeId)
  | membership (column : NodeId) (negated : Bool) : Routine NodeId
  | aliasName (allowString : Bool) : Routine (Option Identifier)
  | joinType : Routine (Option JoinType)
  | setOperator : Routine (Option SetOperator)
  | frameBound : Routine FrameBound

/-- A routine at work, with the given rules inside. -/
def Routine.builder (rules : Rules) : {β : Type} → Routine β → Builder β
  | _, .single procedure => procedure.builder rules
  | _, .whole range procedure => Builder.within range (Builder.wholly (procedure.builder rules))
  | _, .segments item => Builder.segments (item.builder rules)
  | _, .commaList item => Builder.commaList (item.builder rules)
  | _, .membership column negated => Build.membership rules column negated
  | _, .aliasName allowString => Builder.read (Parser.aliasName allowString)
  | _, .joinType => Builder.read Grammar.joinType
  | _, .setOperator => Builder.read Grammar.setOperator
  | _, .frameBound => Builder.read Grammar.frameBound

/-- The column of a membership is adopted last, when nothing can be refused any more. -/
theorem adds_membership {rules : Rules} {grammar : Grammar.Rules} (follow : rules.Follow grammar)
    (column : NodeId) (negated : Bool) : Adds (membership rules column negated) := by
  refine .bracketed fun opening => ?_
  refine .read_bind fun statement => ?_
  cases statement with
  | true => exact (builds_wholeStatement follow).adds_bind fun statement => .add _
  | false =>
      refine follow.column.segments.adds_bind fun columns => ?_
      cases columns with
      | nil => exact .read _
      | cons first others => exact .add _

/-- Whatever the routine, all it does to the tree is to add nodes. -/
theorem Routine.adds {β : Type} (routine : Routine β) {rules : Rules}
    {grammar : Grammar.Rules} (follow : rules.Follow grammar) : Adds (routine.builder rules) := by
  cases routine with
  | single procedure =>
      obtain ⟨_, _, builds⟩ := procedure.exists_builds follow
      exact builds.adds
  | whole range procedure =>
      obtain ⟨_, _, builds⟩ := procedure.exists_builds follow
      exact (builds.wholly.within range).adds
  | segments item =>
      obtain ⟨_, _, builds⟩ := item.exists_builds follow
      exact builds.segments.adds
  | commaList item =>
      obtain ⟨_, _, builds⟩ := item.exists_builds follow
      exact builds.commaList.adds
  | membership column negated => exact adds_membership follow column negated
  | aliasName allowString => exact .read _
  | joinType => exact .read _
  | setOperator => exact .read _
  | frameBound => exact .read _

end Build

end SelectTree
