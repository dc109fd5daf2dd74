/-
Module: SelectTree.Proofs.Build.Tracks
Purpose: when a builder does to a tree what a parser says, and how that is kept when both are
  composed.
Main exports: Agrees, Tracks, Builds, Tracks.call, Tracks.read, Tracks.add

A builder and a parser run side by side.  The parser only says which words are a phrase; the
builder has added nodes by the time it knows.  So the two are compared at every point in between:
the builder has by then added some nodes of the layout of the phrase, and what it adds from there
completes them.  If the words are refused, any nodes may be left, as long as they adopt only each
other.
-/
import SelectTree.Proofs.Build.Apply
import SelectTree.Proofs.Layout.Phrase
import SelectTree.Proofs.Tree.Rollback

namespace SelectTree

/-! ### Layouts of lists and of what may be missing -/

namespace Layout

variable {α β : Type}

/-- The layouts of the items of a list, one after the other. -/
def each (layout : α → Layout β) : List α → Layout (List β)
  | [] => pure []
  | value :: values => do
      let first ← layout value
      let others ← each layout values
      pure (first :: others)

/-- The layout of what may be missing. -/
def perhaps (layout : α → Layout β) : Option α → Layout (Option β)
  | none => pure none
  | some value => some <$> layout value

/-- The layout of a list that has a first item. -/
def eachOf (layout : α → Layout β) (values : α × List α) : Layout (β × List β) := do
  let first ← layout values.1
  let others ← each layout values.2
  pure (first, others)

@[simp] theorem each_nil (layout : α → Layout β) : each layout [] = pure [] := rfl

@[simp] theorem perhaps_none (layout : α → Layout β) : perhaps layout none = pure none := rfl

@[simp] theorem perhaps_some (layout : α → Layout β) (value : α) :
    perhaps layout (some value) = some <$> layout value := rfl

@[simp] theorem run_each_cons (layout : α → Layout β) (value : α) (values : List α)
    (start : Nat) :
    (each layout (value :: values)).run start =
      (((layout value).run start).1 ::
        ((each layout values).run (start + ((layout value).run start).2.length)).1,
        ((layout value).run start).2 ++
          ((each layout values).run (start + ((layout value).run start).2.length)).2) := by
  simp [each]

/-- The phrases of a list are laid out one after the other. -/
@[simp] theorem layout_ofList {form : Form} (phrases : List (Phrase form)) :
    (Phrases.ofList phrases).layout = each Phrase.layout phrases := by
  induction phrases with
  | nil => rfl
  | cons phrase phrases ih =>
      rw [Phrases.ofList, Phrases.layout, ih]
      rfl

/-- The nodes of every layout adopt only each other. -/
def Contained (layout : α → Layout β) : Prop :=
  ∀ value start, SelfContained start ((layout value).run start).2

namespace Contained

/-- Nodes that leave only their own stems adopt only each other. -/
theorem of_yields {layout : α → Layout β} {outcome : α → β → List Stem}
    (yields : ∀ value, Yields [] (layout value) (outcome value)) : Contained layout :=
  fun value start => ((yields value).sprout start).selfContained

theorem phrase {form : Form} : Contained fun phrase : Phrase form => phrase.layout :=
  of_yields Phrase.yields

theorem perhaps {layout : α → Layout β} (contained : Contained layout) :
    Contained (Layout.perhaps layout) := by
  intro value start
  cases value with
  | none => exact .nil
  | some value => simpa using contained value start

theorem perhapsPhrase {form : Form} : Contained fun found : Perhaps form => found.layout := by
  intro found start
  cases found with
  | absent => exact .nil
  | present phrase => simpa [Perhaps.layout] using Contained.phrase phrase start

/-- Layouts one after the other hold only nodes of their own. -/
theorem each {layout : α → Layout β} (contained : Contained layout) :
    Contained (Layout.each layout) := by
  intro values
  induction values with
  | nil => exact fun start => .nil
  | cons value values ih =>
      intro start
      rw [run_each_cons]
      exact (contained value start).append (ih _)

theorem eachOf {layout : α → Layout β} (contained : Contained layout) :
    Contained (Layout.eachOf layout) := by
  intro values start
  have both := contained.each (values.1 :: values.2) start
  simpa [Layout.eachOf] using both

end Contained

end Layout

/-! ### Builders that do what parsers say -/

/-- What a builder does to a tree with some nodes added behind it, against the answer of a parser
to the same words and the layout of this answer. -/
def Agrees {α β : Type} (layout : α → Layout β) (tree : Tree) (nesting : Nat)
    (answer : Except Fault (α × Words)) (outcome : Except Fault β × Workspace) : Prop :=
  match answer with
  | .ok (value, rest) =>
      outcome = (.ok ((layout value).run tree.size).1,
        { words := rest, nesting, tree := tree.attachAll ((layout value).run tree.size).2 })
  | .error fault =>
      ∃ left nodes, SelfContained tree.size nodes ∧
        outcome = (.error fault, { words := left, nesting, tree := tree.attachAll nodes })

section Agrees

variable {α β : Type} {layout : α → Layout β} {tree : Tree} {nesting : Nat}
  {outcome : Except Fault β × Workspace}

/-- Where the parser gives a value, the builder adds its nodes and gives their number. -/
theorem agrees_ok {value : α} {rest : Words} :
    Agrees layout tree nesting (.ok (value, rest)) outcome ↔
      outcome = (.ok ((layout value).run tree.size).1,
        { words := rest, nesting, tree := tree.attachAll ((layout value).run tree.size).2 }) :=
  Iff.rfl

/-- Where the parser fails, the builder fails alike, and what it added hangs together. -/
theorem agrees_error {fault : Fault} :
    Agrees layout tree nesting (.error fault) outcome ↔
      ∃ left nodes, SelfContained tree.size nodes ∧
        outcome = (.error fault, { words := left, nesting, tree := tree.attachAll nodes }) :=
  Iff.rfl

end Agrees

/-- A builder completes what is already added of the layout of a phrase, where a parser recognises
the phrase; where the parser refuses the words, so does the builder. -/
def Tracks {α β : Type} (start : Nat) (done : List Node) (builder : Builder β)
    (parser : Parser α) (layout : α → Layout β) : Prop :=
  SelfContained start done → ∀ (limits : Limits) (words : Words) (nesting : Nat) (tree : Tree),
    tree.Closed → tree.size = start →
    Agrees layout tree nesting (parser (limits.scope nesting) words)
      (builder.on limits { words, nesting, tree := tree.attachAll done })

/-- A builder adds the layout of what a parser recognises, and refuses what the parser refuses. -/
structure Builds {α β : Type} (builder : Builder β) (parser : Parser α)
    (layout : α → Layout β) : Prop where
  contained : Layout.Contained layout
  tracks : ∀ start, Tracks start [] builder parser layout

namespace Builds

variable {α β : Type} {builder : Builder β} {parser : Parser α} {layout : α → Layout β}
  {limits : Limits} {workspace : Workspace}

/-- A builder agrees with its parser on every closed tree. -/
theorem agrees (builds : Builds builder parser layout) (closed : workspace.tree.Closed) :
    Agrees layout workspace.tree workspace.nesting
      (parser (limits.scope workspace.nesting) workspace.words)
      (builder.on limits workspace) :=
  builds.tracks _ .nil limits workspace.words workspace.nesting workspace.tree closed rfl

/-- What the parser recognises is added. -/
theorem on_of_ok (builds : Builds builder parser layout) (closed : workspace.tree.Closed)
    {value : α} {rest : Words}
    (read : parser (limits.scope workspace.nesting) workspace.words = .ok (value, rest)) :
    builder.on limits workspace =
      (.ok ((layout value).run workspace.tree.size).1,
        { words := rest, nesting := workspace.nesting,
          tree := workspace.tree.attachAll ((layout value).run workspace.tree.size).2 }) :=
  agrees_ok.1 (read ▸ builds.agrees closed)

/-- What the parser refuses is refused, and the nodes that are left adopt only each other. -/
theorem on_of_error (builds : Builds builder parser layout) (closed : workspace.tree.Closed)
    {fault : Fault}
    (refused : parser (limits.scope workspace.nesting) workspace.words = .error fault) :
    ∃ left nodes, SelfContained workspace.tree.size nodes ∧
      builder.on limits workspace =
        (.error fault, { words := left, nesting := workspace.nesting,
                         tree := workspace.tree.attachAll nodes }) :=
  agrees_error.1 (refused ▸ builds.agrees closed)

end Builds

/-- A part that only adds nodes, whatever the words are. -/
def Plants {β : Type} (builder : Builder β) (start : Nat) (result : β) (nodes : List Node) :
    Prop :=
  ∀ (limits : Limits) (workspace : Workspace), workspace.tree.size = start →
    builder.on limits workspace =
      (.ok result, { workspace with tree := workspace.tree.attachAll nodes })

namespace Plants

variable {α β : Type} {start : Nat}

theorem pure (value : α) : Plants (Pure.pure value) start value [] :=
  fun _ _ _ => rfl

theorem add (node : Node) : Plants (Builder.add node) start ⟨start⟩ [node] := by
  rintro limits workspace rfl
  rfl

theorem plant (layout : Layout β) :
    Plants (Builder.plant layout) start (layout.run start).1 (layout.run start).2 := by
  rintro limits workspace rfl
  rfl

/-- Nodes are planted one behind the other. -/
theorem bind {first : Builder α} {next : α → Builder β} {value : α} {result : β}
    {nodes more : List Node} (one : Plants first start value nodes)
    (two : Plants (next value) (start + nodes.length) result more) :
    Plants (first >>= next) start result (nodes ++ more) := by
  intro limits workspace size
  rw [Builder.on_bind, one limits workspace size]
  simp only
  rw [two limits _ (by simp [size]), Tree.attachAll_append]

/-- A part and then something that only names its result. -/
theorem name {first : Builder α} {next : α → Builder β} {value : α} {result : β}
    {nodes : List Node} (plants : Plants first start value nodes)
    (named : next value = Pure.pure result) : Plants (first >>= next) start result nodes := by
  have both := plants.bind (named ▸ Plants.pure result :
    Plants (next value) (start + nodes.length) result [])
  simpa using both

end Plants

namespace Tracks

variable {α β γ δ : Type} {start : Nat} {done : List Node} {layout : γ → Layout δ}

/-! The end of a rule: the phrase is recognised, and only nodes are still to be added. -/

/-- What is left to plant completes the layout of the phrase. -/
theorem finish {builder : Builder δ} {phrase : γ} {result : δ} {nodes : List Node}
    (plants : Plants builder (start + done.length) result nodes)
    (laid : (layout phrase).run start = (result, done ++ nodes)) :
    Tracks start done builder (pure phrase) layout := by
  rintro - limits words nesting tree closed rfl
  refine agrees_ok.2 ?_
  rw [plants limits _ (by simp), laid, Tree.attachAll_append]

theorem add {layout : γ → Layout NodeId} {phrase : γ} {node : Node}
    (laid : (layout phrase).run start = (⟨start + done.length⟩, done ++ [node])) :
    Tracks start done (Builder.add node) (pure phrase) layout :=
  finish (.add node) laid

/-- Nothing is left to plant, so what is done is the layout of the phrase. -/
theorem return' {phrase : γ} {result : δ} (laid : (layout phrase).run start = (result, done)) :
    Tracks start done (pure result) (pure phrase) layout :=
  finish (.pure result) (by rw [laid, List.append_nil])

/-- The words are refused by both. -/
theorem refuse {builder : Builder δ} {parser : Parser γ} (fault : Scope → Words → Fault)
    (parserRefuses : ∀ scope words, parser scope words = .error (fault scope words))
    (builderRefuses : ∀ limits workspace, builder.on limits workspace =
      (.error (fault (limits.scope workspace.nesting) workspace.words), workspace)) :
    Tracks start done builder parser layout := by
  rintro contained limits words nesting tree closed rfl
  rw [parserRefuses, builderRefuses]
  exact ⟨words, done, contained, rfl⟩

theorem failAt (word : Word) (cause : Cause) :
    Tracks start done (Builder.failAt word cause) (Parser.failAt word cause) layout :=
  refuse (fun _ _ => .about word cause) (fun _ _ => rfl) fun _ _ => rfl

theorem failHere (what : String) :
    Tracks start done (Builder.failHere what) (Parser.failHere what) layout :=
  refuse (fun _ words => .expected .syntactic what words) (fun _ _ => rfl)
    fun _ _ => rfl

theorem fail (fault : Fault) :
    Tracks start done (Builder.read (Parser.fail fault)) (Parser.fail fault) layout :=
  refuse (fun _ _ => fault) (fun _ _ => rfl) fun _ _ => rfl

/-! The parts of a rule, in the order in which they are read. -/

/-- Words are read. -/
theorem read {parser : Parser α} {next : α → Builder δ} {rest : α → Parser γ}
    (goesOn : ∀ value, Tracks start done (next value) (rest value) layout) :
    Tracks start done (Builder.read parser >>= next) (parser >>= rest) layout := by
  intro contained limits words nesting tree closed size
  rw [Parser.bind_apply, Builder.on_bind, Builder.on_read]
  simp only
  rcases parser (limits.scope nesting) words with fault | ⟨value, behind⟩
  · exact ⟨words, done, size ▸ contained, rfl⟩
  · exact goesOn value contained limits behind nesting tree closed size

/-- A part that is a rule of its own. -/
theorem call {builder : Builder β} {parser : Parser α} {part : α → Layout β}
    {next : β → Builder δ} {rest : α → Parser γ} (builds : Builds builder parser part)
    (goesOn : ∀ value,
      Tracks start (done ++ ((part value).run (start + done.length)).2)
        (next ((part value).run (start + done.length)).1) (rest value) layout) :
    Tracks start done (builder >>= next) (parser >>= rest) layout := by
  rintro contained limits words nesting tree closed rfl
  have size : (tree.attachAll done).size = tree.size + done.length := by simp
  have first := builds.tracks _ .nil limits words nesting _ (closed.attachAll done) size
  rw [Parser.bind_apply, Builder.on_bind]
  rw [Tree.attachAll_nil] at first
  rcases answer : parser (limits.scope nesting) words with fault | ⟨value, behind⟩ <;>
    rw [answer] at first
  · obtain ⟨left, nodes, only, run⟩ := agrees_error.1 first
    rw [size] at only
    refine agrees_error.2 ⟨left, done ++ nodes, contained.append only, ?_⟩
    rw [run, Tree.attachAll_append]
  · rw [agrees_ok.1 first, size, ← Tree.attachAll_append]
    exact goesOn value (contained.append (builds.contained value _)) limits behind nesting tree
      closed rfl

/-- A part whose result is taken as it is. -/
theorem tail {builder : Builder δ} {parser : Parser γ} (builds : Builds builder parser layout) :
    Tracks start [] builder parser layout :=
  builds.tracks start

/-- A part whose result is taken as it is, where the phrase is more than what the part
recognises but has the same nodes. -/
theorem tailAs {builder : Builder δ} {parser : Parser α} {part : α → Layout δ}
    {convert : α → γ} (builds : Builds builder parser part)
    (sameNodes : ∀ value, layout (convert value) = part value) :
    Tracks start [] builder (do return convert (← parser)) layout := by
  intro contained limits words nesting tree closed size
  have inner := builds.tracks start contained limits words nesting tree closed size
  rw [Parser.bind_apply]
  rcases answer : parser (limits.scope nesting) words with fault | ⟨value, behind⟩ <;>
    rw [answer] at inner
  · exact inner
  · refine agrees_ok.2 ?_
    rw [sameNodes]
    exact agrees_ok.1 inner

/-- A part that only adds nodes, in the middle of a rule. -/
theorem plant {builder : Builder β} {result : β} {nodes : List Node} {next : β → Builder δ}
    {parser : Parser γ} (plants : Plants builder (start + done.length) result nodes)
    (only : SelfContained start (done ++ nodes))
    (goesOn : Tracks start (done ++ nodes) (next result) parser layout) :
    Tracks start done (builder >>= next) parser layout := by
  rintro contained limits words nesting tree closed rfl
  have rest := goesOn only limits words nesting tree closed rfl
  rw [Builder.on_bind, plants limits _ (by simp)]
  simpa [Tree.attachAll_append] using rest

end Tracks

end SelectTree
