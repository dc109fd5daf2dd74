/-
Module: SelectTree.Proofs.Tree.Command
Purpose: a refused call leaves the tree as it was, and which additions are not refused.
Main exports: Tree.Command.settle, Command.add_apply, Command.setParent_apply,
  Command.replaceChild_apply, Command.replaceChildAndReparent_apply, Command.Atomic,
  Command.refused_unchanged

Each call comes to what a function of the whole tree says: the checks of a call come before all that
it writes, and what it writes never fails.
-/
import SelectTree.Proofs.Tree.Replace
import SelectTree.Tree.Command

namespace SelectTree

namespace Tree

namespace Command

variable {α β : Type}

/-! ### Checks -/

theorem bind_apply (first : Command α) (next : α → Command β) (tree : Tree) :
    (first >>= next) tree =
      match first tree with
      | .ok value after => next value after
      | .error error after => .error error after := by
  change (first >>= next).run tree = _
  rw [EStateM.run_bind, EStateM.run]
  cases first tree <;> rfl

/-- Looking never changes the tree. -/
theorem look_apply (check : Tree → Except TreeError α) (tree : Tree) :
    look check tree =
      match check tree with
      | .ok value => .ok value tree
      | .error error => .error error tree := by
  change (match check tree with
    | .ok value => pure value
    | .error error => throw error : Command α) tree = _
  cases check tree <;> rfl

theorem throw_bind (error : TreeError) (next : α → Command β) :
    (throw error >>= next) = throw error := rfl

theorem throw_bind_except (error : TreeError) (next : α → Except TreeError β) :
    (throw error >>= next) = .error error := rfl

/-! Checks one after the other are one check. -/

/-- Two looks are one, since the tree has not changed in between. -/
theorem look_bind_look (first : Tree → Except TreeError α)
    (second : α → Tree → Except TreeError β) :
    (look first >>= fun value => look (second value)) =
      look fun tree => first tree >>= fun value => second value tree := by
  funext tree
  simp only [bind_apply, look_apply]
  cases first tree <;> rfl

theorem get_bind_look (check : Tree → Tree → Except TreeError α) :
    (get >>= fun now => look (check now)) = look fun tree => check tree tree := rfl

theorem refuse_look {refused : Prop} [Decidable refused] (error : TreeError)
    (check : Tree → Except TreeError α) :
    (if refused then throw error else look check : Command α) =
      look fun tree => if refused then .error error else check tree := by
  split <;> rfl

/-- Inspecting placements one by one is checking them on the tree as it is. -/
theorem inspect_eq_look (seen : List NodeId) (placements : List (FieldDescriptor × NodeId)) :
    inspect seen placements = look (·.checkPlacements seen placements) := by
  induction placements generalizing seen with
  | nil => rfl
  | cons placement placements ih =>
      obtain ⟨field, child⟩ := placement
      simp only [inspect, checkPlacements, ih, throw_bind, throw_bind_except, refuse_look,
        get_bind_look, look_bind_look]

/-! ### What calls come to -/

/-- The tree behind a call that changes it as a whole or not at all. -/
def settle (tree : Tree) : Except TreeError (α × Tree) → EStateM.Result TreeError Tree α
  | .ok (value, changed) => .ok value changed
  | .error error => .error error tree

/-- A call that succeeds leaves the tree that its outcome holds. -/
theorem settle_eq_ok_iff {tree after : Tree} {outcome : Except TreeError (α × Tree)} {value : α} :
    settle tree outcome = .ok value after ↔ outcome = .ok (value, after) := by
  cases outcome with
  | ok result => simp [settle, Prod.ext_iff]
  | error error => exact ⟨nofun, nofun⟩

/-- A call that is refused leaves the tree as it was. -/
theorem settle_eq_error_iff {tree after : Tree} {outcome : Except TreeError (α × Tree)}
    {error : TreeError} :
    settle tree outcome = .error error after ↔ outcome = .error error ∧ after = tree := by
  cases outcome with
  | ok result => simp [settle]
  | error other => simp [settle, eq_comm]

/-- A check in front of what settles. -/
theorem look_bind_apply {check : Tree → Except TreeError α} {next : α → Command β} {tree : Tree}
    {outcome : α → Except TreeError (β × Tree)}
    (settles : ∀ value, next value tree = settle tree (outcome value)) :
    (look check >>= next) tree = settle tree (check tree >>= outcome) := by
  rw [bind_apply, look_apply]
  cases check tree with
  | ok value => exact settles value
  | error error => rfl

/-- A refusal in front of what settles. -/
theorem refuse_apply {refused : Prop} [Decidable refused] {error : TreeError} {rest : Command α}
    {convert : β → α × Tree} {outcome : Except TreeError β} {tree : Tree}
    (settles : rest tree = settle tree (convert <$> outcome)) :
    (if refused then throw error else rest) tree =
      settle tree (convert <$> if refused then .error error else outcome) := by
  split
  · rfl
  · exact settles

theorem get_bind_apply (next : Tree → Command α) (tree : Tree) :
    (get >>= next) tree = next tree tree := rfl

/-- Changes one after the other are a fold over the tree. -/
theorem forM_modify_apply (change : NodeId → Tree → Tree) (ids : List NodeId) (tree : Tree) :
    (ids.forM fun id => modify (change id) : Command Unit) tree =
      .ok () (ids.foldl (fun grown id => change id grown) tree) := by
  induction ids generalizing tree with
  | nil => rfl
  | cons id ids ih => exact ih (change id tree)

/-- The steps of attaching, one after the other, are the attached tree and the new number. -/
theorem attach_apply (node : Node) (tree : Tree) :
    attach node tree = .ok tree.nextId (tree.attach node) := by
  have adopted := forM_modify_apply (fun child => (·.recordParent (some tree.nextId) child))
    node.childIds (tree.push node)
  change ((node.childIds.forM fun child => modify (·.recordParent (some tree.nextId) child)) >>=
    fun _ => pure tree.nextId : Command NodeId) (tree.push node) = _
  rw [bind_apply, adopted]
  rfl

/-- Adding is decided on the tree before anything is changed. -/
theorem add_apply (node : Node) (tree : Tree) : add node tree = settle tree (tree.add node) := by
  rw [add, inspect_eq_look]
  exact look_bind_apply fun _ => attach_apply node tree

/-- Recording a parent is decided before anything is changed. -/
theorem setParent_apply (id : NodeId) (parent : Option NodeId) (tree : Tree) :
    setParent id parent tree =
      settle tree ((fun changed => ((), changed)) <$> tree.setParent id parent) := by
  rw [setParent, Tree.setParent, map_bind]
  refine look_bind_apply fun _ => ?_
  cases parent with
  | none => rfl
  | some above =>
      simp only [bind_apply, look_apply]
      cases tree.require above <;> rfl

/-! ### The search through the fields -/

section Exchange

variable (parent old new : NodeId) (node : Node) (found : NodeClass) {holds : FieldValue → Bool}
  {fields : List FieldDescriptor} {values : List FieldValue} (typed : Typed fields values)

include typed

/-- Where no field holds the child, nothing is exchanged. -/
theorem exchange_of_none (start : Nat) (absent : values.findIdx? holds = none) :
    exchange parent old new node found holds start (fields.zip values) = pure false := by
  rw [List.findIdx?_eq_none_iff] at absent
  induction typed generalizing start with
  | nil => rfl
  | @cons _ value _ _ _ _ ih =>
      have passed := absent value List.mem_cons_self
      rw [List.zip_cons_cons, exchange, if_neg (by simp [passed])]
      exact ih (start + 1) fun other member => absent other (List.mem_cons_of_mem _ member)

/-- The first field that holds the child is checked and then changed. -/
theorem exchange_of_some (start : Nat) {index : Nat} (first : values.findIdx? holds = some index)
    (tree : Tree) :
    ∃ field, fields[index]? = some field ∧
      exchange parent old new node found holds start (fields.zip values) tree =
        settle tree (field.checkClass found >>= fun _ =>
          .ok (true, tree.setNode parent (node.replaceIn (start + index) old new))) := by
  induction typed generalizing start index with
  | nil => cases first
  | @cons field value fields values _ _ ih =>
      rw [List.findIdx?_cons] at first
      rw [List.zip_cons_cons, exchange]
      split at first
      · next here =>
          cases first
          rw [if_pos here]
          exact ⟨field, rfl, look_bind_apply fun _ => rfl⟩
      · next further =>
          obtain ⟨behind, isBehind, rfl⟩ := Option.map_eq_some_iff.1 first
          obtain ⟨other, atIndex, changes⟩ := ih (start + 1) isBehind
          refine ⟨other, atIndex, ?_⟩
          rw [if_neg further, changes, Nat.add_assoc, Nat.add_comm 1]

end Exchange

/-- What a replacement answers, and the tree behind it. -/
def answered (tree : Tree) : Option Tree → Bool × Tree
  | some replaced => (true, replaced)
  | none => (false, tree)

/-- A replacement is decided before anything is changed. -/
theorem replaceChild_apply (parent old new : NodeId) (tree : Tree) :
    replaceChild parent old new tree =
      settle tree (answered tree <$> tree.replaceChild parent old new) := by
  rw [replaceChild, Tree.replaceChild, map_bind]
  refine look_bind_apply fun node => ?_
  rw [map_bind]
  refine look_bind_apply fun oldNode => ?_
  rw [map_bind]
  refine look_bind_apply fun newNode => ?_
  simp only [throw_bind, throw_bind_except]
  refine refuse_apply ?_
  rw [Node.fieldOf?]
  cases single : node.values.findIdx? (·.isChild old) with
  | some index =>
      obtain ⟨field, atIndex, changes⟩ := exchange_of_some parent old new node newNode.nodeClass
        node.values_typed 0 single tree
      rw [bind_apply, changes, Option.some_or, Nat.zero_add]
      dsimp only
      rw [atIndex]
      dsimp only
      cases field.checkClass newNode.nodeClass <;> rfl
  | none =>
      rw [exchange_of_none _ _ _ _ _ node.values_typed 0 single, Option.none_or]
      cases inList : node.values.findIdx? (·.listsChild old) with
      | some index =>
          obtain ⟨field, atIndex, changes⟩ := exchange_of_some parent old new node
            newNode.nodeClass node.values_typed 0 inList tree
          rw [pure_bind, if_neg Bool.false_ne_true, changes, Nat.zero_add]
          dsimp only
          rw [atIndex]
          dsimp only
          cases field.checkClass newNode.nodeClass <;> rfl
      | none =>
          rw [exchange_of_none _ _ _ _ _ node.values_typed 0 inList]
          rfl

/-- A replacement that moves a node is decided before anything is changed. -/
theorem replaceChildAndReparent_apply (parent old new : NodeId) (tree : Tree) :
    replaceChildAndReparent parent old new tree =
      settle tree ((fun changed => ((), changed)) <$>
        tree.replaceChildAndReparent parent old new) := by
  rw [replaceChildAndReparent, Tree.replaceChildAndReparent, map_bind]
  refine look_bind_apply fun _ => ?_
  simp only [throw_bind, throw_bind_except]
  rw [get_bind_apply]
  refine refuse_apply ?_
  rw [get_bind_apply]
  refine refuse_apply ?_
  rw [bind_apply, replaceChild_apply]
  cases tree.replaceChild parent old new with
  | error error => rfl
  | ok answer => cases answer <;> rfl

/-- In place or not, the call makes the same tree. -/
theorem replaceChildAndReparent_eq_ok_iff {tree result : Tree} {parent old new : NodeId} :
    replaceChildAndReparent parent old new tree = .ok () result ↔
      tree.replaceChildAndReparent parent old new = .ok result := by
  rw [replaceChildAndReparent_apply, settle_eq_ok_iff]
  cases tree.replaceChildAndReparent parent old new with
  | ok changed => simp [Functor.map, Except.map]
  | error error => exact ⟨nofun, nofun⟩

/-! ### Refused calls -/

/-- Where the call is refused it leaves the tree as it was. -/
def Atomic (call : Command α) : Prop :=
  ∀ tree error after, call tree = .error error after → after = tree

/-- A call that is settled by its outcome is atomic. -/
theorem Atomic.of_settle {call : Command α} {outcome : Tree → Except TreeError (α × Tree)}
    (settles : ∀ tree, call tree = settle tree (outcome tree)) : Atomic call := by
  intro tree error after refused
  rw [settles] at refused
  exact (settle_eq_error_iff.1 refused).2

/-- A node is added exactly if its children may be adopted. -/
theorem add_eq_ok_iff {tree : Tree} {node : Node} :
    (∃ id grown, add node tree = .ok id grown) ↔ tree.Attachable node := by
  simp only [add_apply, settle_eq_ok_iff]
  constructor
  · rintro ⟨id, grown, added⟩
    exact (Tree.add_eq_ok_iff.1 added).1
  · intro attachable
    exact ⟨_, _, Tree.add_eq_ok_iff.2 ⟨attachable, rfl, rfl⟩⟩

/-- Whatever the tree is, also one whose nodes and recorded parents do not agree: a call that adds a
node, records a parent or exchanges a child leaves the tree as it was when it is refused.  A node is
added exactly if each of its children exists, is no root, fits its field, has no recorded parent,
and occurs in one place of the node only. -/
theorem refused_unchanged :
    (∀ node, Atomic (add node)) ∧ (∀ id parent, Atomic (setParent id parent)) ∧
      (∀ parent old new, Atomic (replaceChild parent old new)) ∧
      (∀ parent old new, Atomic (replaceChildAndReparent parent old new)) ∧
      ∀ (tree : Tree) (node : Node), (∃ id grown, add node tree = .ok id grown) ↔
        (∀ field child, (field, child) ∈ node.placements → ∃ found,
          tree.node? child = some found ∧ found.nodeClass ≠ .root ∧ field.Fits found.nodeClass ∧
            tree.parent? child = none) ∧
        node.childIds.Nodup := by
  refine ⟨fun node => .of_settle (add_apply node),
    fun id parent => .of_settle (setParent_apply id parent),
    fun parent old new => .of_settle (replaceChild_apply parent old new),
    fun parent old new => .of_settle (replaceChildAndReparent_apply parent old new), ?_⟩
  intro tree node
  rw [add_eq_ok_iff]
  constructor
  · rintro ⟨fits, loose, nodup⟩
    refine ⟨fun field child placed => ?_, nodup⟩
    obtain ⟨found, atChild, fit⟩ := fits field child placed
    exact ⟨found, atChild, fit.ne_root, fit, loose child (Node.mem_childIds_of_placement placed)⟩
  · rintro ⟨each, nodup⟩
    refine { fits := fun field child placed => ?_, loose := fun child held => ?_, nodup }
    · obtain ⟨found, atChild, -, fit, -⟩ := each field child placed
      exact ⟨found, atChild, fit⟩
    · obtain ⟨field, placed⟩ := Node.exists_placement held
      obtain ⟨_, _, _, _, loose⟩ := each field child placed
      exact loose

/-- A root over a node that does not exist, a column under a parent that does not exist, and a
bracket that holds a column without being its recorded parent. -/
def astray : Tree :=
  { entries := #[
      { node := .root (some ⟨9⟩), parent := none },
      { node := .column .null, parent := some ⟨7⟩ },
      { node := .column .null, parent := none },
      { node := .column (.bracket (some ⟨2⟩)), parent := none },
      { node := .condition (.not none), parent := none }] }

/-- The first column has a parent, and parents must exist; a condition does not fit the bracket, and
the first column is not in it.  The second column may be adopted once more. -/
theorem refused_unchanged_astray :
    (∃ error, add (.column (.negated (some ⟨1⟩))) astray = .error error astray) ∧
      (∃ error, setParent ⟨1⟩ (some ⟨8⟩) astray = .error error astray) ∧
      (∃ error, replaceChild ⟨3⟩ ⟨2⟩ ⟨4⟩ astray = .error error astray) ∧
      (∃ error, replaceChildAndReparent ⟨3⟩ ⟨1⟩ ⟨2⟩ astray = .error error astray) ∧
      ∃ id grown, add (.column (.negated (some ⟨2⟩))) astray = .ok id grown := by
  obtain ⟨adds, records, replaces, moves, added_iff⟩ := refused_unchanged
  have unchanged {α : Type} {call : Command α} (atomic : Atomic call)
      (refused : ∃ error after, call astray = .error error after) :
      ∃ error, call astray = .error error astray := by
    obtain ⟨error, after, failed⟩ := refused
    exact ⟨error, atomic astray error after failed ▸ failed⟩
  refine ⟨unchanged (adds _) ⟨_, _, rfl⟩, unchanged (records _ _) ⟨_, _, rfl⟩,
    unchanged (replaces _ _ _) ⟨_, _, rfl⟩, unchanged (moves _ _ _) ⟨_, _, rfl⟩,
    (added_iff _ _).2 ⟨?_, by decide⟩⟩
  intro field child placed
  obtain ⟨rfl, rfl⟩ : field = ⟨"operand", .child .column⟩ ∧ child = ⟨2⟩ := by
    simpa [Node.placements, Node.fields, Node.kind, Kind.fields, Node.values,
      FieldValue.childIds] using placed
  exact ⟨.column .null, rfl, by decide, ⟨.column, rfl, rfl⟩, rfl⟩

end Command

end Tree

end SelectTree
