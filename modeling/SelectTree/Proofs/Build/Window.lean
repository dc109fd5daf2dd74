/-
Module: SelectTree.Proofs.Build.Window
Purpose: the node of a window keeps the frame that is written in its brackets.
Main exports: Build.ReadsWindow, Build.exists_readsWindow, Build.ReadsWindow.suffix_iff,
  Build.frames_kept
-/
import SelectTree.Proofs.Build.Progress
import SelectTree.Proofs.Grammar.Frame

namespace SelectTree

namespace Build

/-- The lists in front of the frame. -/
def windowLists (rules : Rules) : Builder (List NodeId × List NodeId) := do
  let partitionBy ← listBy .PARTITION rules.column
  let orderBy ← listBy .ORDER (orderItem rules)
  return (partitionBy, orderBy)

theorem assembled_windowLists {bound : Nat} :
    Assembled bound true .behind windowLists fun _ => .behind := by
  refine .bind (assembled_listBy .PARTITION (.inner .column fun _ => rfl)) fun partitionBy => ?_
  exact .bind (assembled_listBy .ORDER assembled_orderItem) fun orderBy => .pure _ (.inr rfl)

/-- Without hooks, the lists leave an end of the words. -/
theorem suffix_of_windowLists {depth : Nat} {limits : Limits} {before left : Workspace}
    {lists : List NodeId × List NodeId} (hookless : limits.hooks = {})
    (ran : (windowLists (rules depth)).on limits before = (.ok lists, left)) :
    left.words <:+ before.words := by
  have front : Lead.behind.Holds (before.words.length + 1) before.words := Nat.lt_succ_self _
  have reached := assembled_windowLists.reaches (rules_orderly depth) limits before hookless front
  rw [ran] at reached
  exact reached.proceeds.words

/-- A window is read: in the brackets behind `OVER` the lists, and then the words of a clause or
nothing.  The node of the window keeps what is kept of the clause. -/
structure ReadsWindow (limits : Limits) (before : Workspace) (group : Words.Group)
    (clause : Option FrameClause) (id : NodeId) (after : Workspace) : Prop where
  opens : ∃ first rest, before.words = first :: rest ∧ first.kind = .keyword .OVER ∧
    Parser.openGroup rest = .ok group
  reads : ∃ room partitionBy orderBy left, Parser.enter limits.room group.contents = .ok room ∧
    (windowLists (rules (before.words.length + 1))).on { limits with room }
      { before with words := group.contents } = (.ok (partitionBy, orderBy), left) ∧
    left.words.map Word.kind = clause.elim [] FrameClause.kinds ∧
    id = left.tree.nextId ∧
    after = { left with
      words := group.behind
      tree := left.tree.attach (.element (.window (slots partitionBy) (slots orderBy)
        (clause.map fun written => written.frame.unit)
        (clause.bind fun written => written.frame.lower)
        (clause.bind fun written => written.frame.upper))) }
  proper : ∀ written ∈ clause, written.Proper

theorem exists_readsWindow {limits : Limits} {workspace after : Workspace} {id : NodeId}
    (read : Rule.window.builder.on limits workspace = (.ok id, after)) :
    ∃ group clause, ReadsWindow limits workspace group clause id after := by
  have ran : (window (rules (workspace.words.length + 1))).on limits workspace = (.ok id, after) :=
    (on_deeply ..).symm.trans read
  obtain ⟨first, _, readFirst, ranBracket⟩ := Builder.on_bind_ok_iff.1 ran
  obtain ⟨rest, expected, rfl⟩ := Builder.exists_of_on_read readFirst
  obtain ⟨isOver, words⟩ := Parser.expectKeyword_ok_iff.1 expected
  obtain ⟨group, room, last, opened, entered, inside, rfl⟩ :=
    Builder.exists_of_on_bracketed ranBracket
  obtain ⟨partitionBy, middle, ranPartition, behindPartition⟩ := Builder.on_bind_ok_iff.1 inside
  obtain ⟨orderBy, left, ranOrder, behindOrder⟩ := Builder.on_bind_ok_iff.1 behindPartition
  obtain ⟨found, _, ranFrame, behindFrame⟩ := Builder.on_bind_ok_iff.1 behindOrder
  obtain ⟨ended, readFrame, rfl⟩ := Builder.exists_of_on_read ranFrame
  obtain ⟨_, _, ranEnd, added⟩ := Builder.on_bind_ok_iff.1 behindFrame
  obtain ⟨_, readEnd, rfl⟩ := Builder.exists_of_on_read ranEnd
  obtain ⟨clause, rfl, proper, begins⟩ := Grammar.frame_ok readFrame
  obtain rfl := Parser.expectEnd_ok readEnd
  cases added
  refine ⟨group, clause, ⟨first, rest, words, isOver, opened⟩,
    ⟨room, partitionBy, orderBy, left, entered, ?_, begins.map_kind, rfl, ?_⟩, proper⟩
  · refine Builder.on_bind_ok_iff.2 ⟨_, _, ranPartition, ?_⟩
    exact Builder.on_bind_ok_iff.2 ⟨_, _, ranOrder, rfl⟩
  · cases clause <;> rfl

theorem ReadsWindow.exists_node {limits : Limits} {before after : Workspace} {group : Words.Group}
    {clause : Option FrameClause} {id : NodeId}
    (window : ReadsWindow limits before group clause id after) :
    ∃ partitionBy orderBy, after.tree.node? id =
      some (.element (.window partitionBy orderBy (clause.map fun written => written.frame.unit)
        (clause.bind fun written => written.frame.lower)
        (clause.bind fun written => written.frame.upper))) := by
  obtain ⟨_, partitionBy, orderBy, left, -, -, -, rfl, rfl⟩ := window.reads
  exact ⟨slots partitionBy, slots orderBy, Tree.node?_attach_nextId ..⟩

/-- Without hooks, the frame of a window is written at the end of its brackets, and no other
one is. -/
theorem ReadsWindow.suffix_iff {limits : Limits} {before after : Workspace} {group : Words.Group}
    {clause : FrameClause} {id : NodeId}
    (window : ReadsWindow limits before group (some clause) id after) (hookless : limits.hooks = {})
    (other : FrameClause) : other.kinds <:+ group.contents.map Word.kind ↔ other = clause := by
  obtain ⟨room, _, _, left, -, ran, same, -⟩ := window.reads
  have inside : ({ limits with room } : Limits).hooks = {} := hookless
  have ends := (suffix_of_windowLists inside ran).map Word.kind
  rw [same] at ends
  constructor
  · exact FrameClause.eq_of_suffix ends
  · rintro rfl
    exact ends

/-- Whatever the words, the room, the hooks and the tree are: if a window is read, then its frame is
written behind its lists, up to the closing bracket, and without hooks there is just one way to see
a frame there.  The pair that is kept says the two bounds, or the single bound and the current row,
unless an unbounded bound is written on the side where the frame does not extend to: then the pair
says other rows than the frame.  Of all other frames, those with the same pair are the same. -/
theorem frames_kept {limits : Limits} {workspace after : Workspace} {id : NodeId}
    (read : Rule.window.builder.on limits workspace = (.ok id, after)) :
    ∃ group clause, ReadsWindow limits workspace group clause id after ∧
      ∀ written ∈ clause,
        (limits.hooks = {} → ∀ other : FrameClause,
          other.kinds <:+ group.contents.map Word.kind ↔ other = written) ∧
        (¬ written.Misdirected → written.frame.edges = written.edges) ∧
        (written.Misdirected →
          rowsBetween written.frame.edges ≠ rowsBetween written.edges) ∧
        ∀ other : FrameClause, other.Proper → ¬ other.Misdirected → ¬ written.Misdirected →
          other.frame.lower = written.frame.lower → other.frame.upper = written.frame.upper →
          other.edges = written.edges := by
  obtain ⟨group, clause, window⟩ := exists_readsWindow read
  refine ⟨group, clause, window, ?_⟩
  intro written isWritten
  obtain rfl : clause = some written := isWritten
  have proper := window.proper written rfl
  refine ⟨fun hookless other => window.suffix_iff hookless other,
    FrameClause.edges_frame proper, FrameClause.rows_frame_ne, ?_⟩
  exact fun other otherProper otherDirected directed lower upper =>
    FrameClause.edges_eq proper otherProper directed otherDirected lower upper

/-- The words of `OVER (ORDER BY a ROWS UNBOUNDED FOLLOWING)`. -/
def unboundedFollowing : Workspace :=
  { words := (TokenStream.ofString "OVER (ORDER BY a ROWS UNBOUNDED FOLLOWING)").words
    nesting := 0
    tree := .new }

/-- The brackets of the window. -/
def unboundedFollowingGroup : Words.Group :=
  { opening := unboundedFollowing.words.tail.headD default
    contents := (unboundedFollowing.words.drop 2).take 6
    behind := [] }

/-- The rows from the current one to the last are written, and those from the first to the current
one are kept. -/
theorem frames_kept_unboundedFollowing :
    let written := FrameClause.single .rows (.unbounded .following)
    ∃ after, Rule.window.builder.on { room := 1 } unboundedFollowing = (.ok ⟨3⟩, after) ∧
      ReadsWindow { room := 1 } unboundedFollowing unboundedFollowingGroup (some written) ⟨3⟩
        after ∧
      after.tree.node? ⟨3⟩ =
        some (.element (.window [] [some ⟨2⟩] (some .rows) none (some 0))) ∧
      written.edges = (.row 0, .last) ∧ written.frame.edges = (.first, .row 0) ∧
      rowsBetween written.frame.edges ≠ rowsBetween written.edges := by
  intro written
  have value : (Rule.window.builder.on { room := 1 } unboundedFollowing).1 = .ok ⟨3⟩ := by
    decide +kernel
  have node : (Rule.window.builder.on { room := 1 } unboundedFollowing).2.tree.node? ⟨3⟩ =
      some (.element (.window [] [some ⟨2⟩] (some .rows) none (some 0))) := by
    decide +kernel
  rcases read : Rule.window.builder.on { room := 1 } unboundedFollowing with ⟨answer, after⟩
  rw [read] at value node
  obtain rfl : answer = .ok ⟨3⟩ := value
  obtain ⟨group, clause, window, kept⟩ := frames_kept read
  obtain rfl : group = unboundedFollowingGroup := by
    obtain ⟨first, rest, words, -, opened⟩ := window.opens
    have same : Parser.openGroup unboundedFollowing.words.tail = .ok unboundedFollowingGroup := by
      decide +kernel
    rw [words, List.tail_cons, opened] at same
    exact Except.ok.inj same
  obtain ⟨_, _, stored⟩ := window.exists_node
  rw [node] at stored
  cases clause with
  | none => cases stored
  | some found =>
      obtain ⟨suffix, -, other, -⟩ := kept found rfl
      have ends : written.kinds <:+ unboundedFollowingGroup.contents.map Word.kind := by
        decide +kernel
      obtain rfl : written = found := (suffix rfl written).1 ends
      exact ⟨after, rfl, window, node, rfl, rfl, other rfl⟩

end Build

end SelectTree
