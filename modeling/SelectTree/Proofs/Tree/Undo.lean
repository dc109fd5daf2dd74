/-
Module: SelectTree.Proofs.Tree.Undo
Purpose: a node that took the place of another one gives it back, and the tree is as it was.
Main exports: Tree.IntactBelow, Tree.Replaced, Tree.Exchange.replaced, Tree.Exchange.put_back,
  Tree.replacement_undone

Whether the way back is open depends on the whole tree.  The child that was taken out fitted its
field.  The child that was put in occurs nowhere else, so it is found where it was put.  The parent
is not below the child that was taken out, or there would have been a circle before.
-/
import SelectTree.Proofs.Tree.Edited
import SelectTree.Proofs.Tree.Preorder
import SelectTree.Proofs.Tree.ReplaceChild

namespace SelectTree

namespace Tree

/-! ### What is below a node -/

/-- The pre-order of a node depends on nothing but the nodes below it. -/
theorem preorder?_of_node?_eq {tree other : Tree} {depth : Nat} {top : NodeId}
    {order : List NodeId} (listed : tree.preorder? depth top = some order)
    (same : ∀ id, tree.Below top id → other.node? id = tree.node? id) :
    other.preorder? depth top = some order := by
  induction depth generalizing top order with
  | zero => cases listed
  | succ depth ih =>
      obtain ⟨node, orders, found, listedBelow, rfl⟩ := preorder?_succ.1 listed
      have sameTop := (same top .refl).trans found
      have each := (List.forall₂_and_left node.children orders).2
        ⟨fun _ member => member, listedBelow⟩
      refine preorder?_succ.2 ⟨node, orders, sameTop, each.imp ?_, rfl⟩
      rintro child order ⟨member, isOrder⟩
      have holds : tree.Holds top child := ⟨node, found, node.children_perm.mem_iff.1 member⟩
      exact ih isOrder fun id reached => same id (.head holds reached)

/-- The same nodes are below a node in both trees; they are the same, and all but the top have the
same recorded parents. -/
def IntactBelow (before after : Tree) (top : NodeId) : Prop :=
  ∃ ids, before.descendants? top = some ids ∧ after.descendants? top = some ids ∧
    ∀ id ∈ ids, after.node? id = before.node? id ∧
      (id ≠ top → after.parent? id = before.parent? id)

theorem Sound.intactBelow {before after : Tree} (sound : before.Sound) {top : NodeId}
    (present : before.Has top) (sameSize : after.size = before.size)
    (nodes : ∀ id steps, before.climb steps id = some top → after.node? id = before.node? id)
    (parents : ∀ id steps, before.climb steps id = some top → id ≠ top →
      after.parent? id = before.parent? id) : IntactBelow before after top := by
  obtain ⟨ids, listed⟩ := sound.exists_preorder? present
  have leads : ∀ id ∈ ids, ∃ steps, before.climb steps id = some top :=
    fun id member => (sound.mem_preorder?_iff listed id).1 member
  have relisted : after.preorder? before.size top = some ids := by
    refine preorder?_of_node?_eq listed fun id below => ?_
    obtain ⟨steps, reached⟩ := leads id ((mem_preorder?_iff_below listed id).2 below)
    exact nodes id steps reached
  refine ⟨ids, descendants?_of_preorder? (Nat.le_succ _) listed,
    descendants?_of_preorder? (by omega) relisted, fun id member => ?_⟩
  obtain ⟨steps, reached⟩ := leads id member
  exact ⟨nodes id steps reached, parents id steps reached⟩

/-! ### Ways up -/

/-- No way up leads from the recorded parent of a node back to the node. -/
theorem not_climb_of_parent? {tree : Tree} {parent child : NodeId}
    (anchored : tree.Anchored child) (recorded : tree.parent? child = some parent) (steps : Nat) :
    tree.climb steps parent ≠ some child := by
  intro reached
  have circle : tree.climb (steps + 1) child = some child := by
    rw [climb_succ, recorded, Option.bind_some, reached]
  have noSteps := steps_unique anchored circle (rfl : tree.climb 0 child = some child)
  omega

namespace Exchange

variable {tree result : Tree} {parent old new : NodeId} {node changed newNode : Node}
  {field : FieldDescriptor} {before after : List (FieldDescriptor × NodeId)}
  (exchange : tree.Exchange result parent old new node changed newNode field before after)

include exchange

theorem parent?_of_ne {id : NodeId} (notOld : id ≠ old) (notNew : id ≠ new) :
    result.parent? id = tree.parent? id := by
  rw [exchange.parent?, if_neg notOld, if_neg notNew]

/-- Where it does not come to the new child, a way up in the result is one in the tree before. -/
theorem climb_of_climb {steps : Nat} {id above : NodeId}
    (avoids : ∀ few, result.climb few id ≠ some new)
    (reached : result.climb steps id = some above) : tree.climb steps id = some above := by
  induction steps generalizing id with
  | zero => exact reached
  | succ steps ih =>
      obtain ⟨next, recorded, further⟩ := Option.bind_eq_some_iff.1 reached
      have notNew : id ≠ new := fun same => avoids 0 (congrArg some same)
      have notOld : id ≠ old := by
        rintro rfl
        rw [exchange.parent?, if_pos rfl] at recorded
        cases recorded
      have sameStep := exchange.parent?_of_ne notOld notNew
      rw [climb_succ, ← sameStep, recorded, Option.bind_some]
      refine ih (fun few toNew => avoids (few + 1) ?_) further
      rw [climb_succ, recorded, Option.bind_some, toNew]

theorem parent?_old_result : result.parent? old = none := by
  rw [exchange.parent?, if_pos rfl]

variable (sound : tree.Sound)

include sound

theorem parent?_new : result.parent? new = some parent := by
  rw [exchange.parent?, if_neg (exchange.new_ne_old sound), if_pos rfl]

/-- In the result the parent is not below the old child. -/
theorem not_climb_old (steps : Nat) : result.climb steps parent ≠ some old := by
  intro reached
  have avoids := not_climb_of_parent? ((exchange.sound_result sound).anchored new)
    (exchange.parent?_new sound)
  exact not_climb_of_parent? (sound.anchored old) (exchange.parent?_old sound) steps
    (exchange.climb_of_climb avoids reached)

theorem intactBelow_new (sameSize : result.size = tree.size) : IntactBelow tree result new := by
  refine sound.intactBelow (has_of_node? exchange.atNew) sameSize ?_ ?_
  · intro id steps reached
    have notParent : id ≠ parent := by
      rintro rfl
      exact exchange.notBelow steps reached
    rw [exchange.node?, if_neg notParent]
  · intro id steps reached notNew
    refine exchange.parent?_of_ne ?_ notNew
    rintro rfl
    -- The old child would be below the new one, and so would be its parent.
    cases steps with
    | zero => exact notNew (Option.some.inj reached)
    | succ steps =>
        rw [climb_succ, exchange.parent?_old sound] at reached
        exact exchange.notBelow steps reached

theorem intactBelow_old (sameSize : result.size = tree.size) : IntactBelow tree result old := by
  have recorded := exchange.parent?_old sound
  refine sound.intactBelow (has_of_parent? recorded) sameSize ?_ ?_
  · intro id steps reached
    have notParent : id ≠ parent := by
      rintro rfl
      exact not_climb_of_parent? (sound.anchored old) recorded steps reached
    rw [exchange.node?, if_neg notParent]
  · intro id steps reached notOld
    refine exchange.parent?_of_ne notOld ?_
    rintro rfl
    -- The new child would be below the old one, but it hangs nowhere.
    cases steps with
    | zero => exact notOld (Option.some.inj reached)
    | succ steps =>
        rw [climb_succ, exchange.loose] at reached
        cases reached

end Exchange

/-! ### One child in the place of another -/

/-- The second tree is the first one with the new child, and all that is below it, where the old
child was first held by the parent.  The old child hangs nowhere and keeps all that is below it. -/
structure Replaced (tree result : Tree) (parent old new : NodeId) : Prop where
  place : ∃ node changed index, tree.node? parent = some node ∧
    result.node? parent = some changed ∧ node.firstField? old = some index ∧
    node.Exchanged index old new changed
  node? : ∀ id, id ≠ parent → result.node? id = tree.node? id
  parent?_new : result.parent? new = some parent
  parent?_old : result.parent? old = none
  /-- No node holds the old child. -/
  not_holds_old : ∀ holder, ¬ result.Holds holder old
  parent? : ∀ id, id ≠ old → id ≠ new → result.parent? id = tree.parent? id
  below_new : IntactBelow tree result new
  below_old : IntactBelow tree result old

variable {tree result : Tree} {parent old new : NodeId}

/-- A child that fits, hangs nowhere and is not above the parent takes the place of another one. -/
theorem replaceChildAndReparent_of_fits {node oldNode newNode : Node} {index : Nat}
    {field : FieldDescriptor} (atParent : tree.node? parent = some node)
    (atOld : tree.node? old = some oldNode) (atNew : tree.node? new = some newNode)
    (oldNotRoot : oldNode.nodeClass ≠ .root) (newNotRoot : newNode.nodeClass ≠ .root)
    (first : node.fieldOf? old = some index) (atIndex : node.fields[index]? = some field)
    (admits : field.checkClass newNode.nodeClass = .ok ()) (loose : tree.parent? new = none)
    (notBelow : tree.isAncestorOrSelf new parent = false) :
    tree.replaceChildAndReparent parent old new =
      .ok (((tree.setNode parent (node.replaceIn index old new)).recordParent (some parent) new
        ).recordParent none old) := by
  have replaced := replaceChild_of_first atParent atOld atNew oldNotRoot newNotRoot first atIndex
  simp [replaceChildAndReparent, require, atNew, loose, notBelow, replaced, admits, bind,
    Except.bind, pure, Except.pure, Except.map]

/-- A replacement that is not refused exchanges two children in the field that is found. -/
theorem Sound.exists_exchange_replaceIn (sound : tree.Sound)
    (outcome : tree.replaceChildAndReparent parent old new = .ok result) :
    ∃ node newNode index field before after, node.fieldOf? old = some index ∧
      result.size = tree.size ∧
      tree.Exchange result parent old new node (node.replaceIn index old new) newNode field
        before after := by
  obtain ⟨-, -, replaced, replaceOutcome, result_eq⟩ := replaceChildAndReparent_eq_ok outcome
  obtain ⟨node, newNode, index, atParent, -, first, -, rfl⟩ :=
    replaceChild_eq_some replaceOutcome
  obtain ⟨sameNode, changed, atNew, field, before, after, exchange⟩ :=
    sound.exchange_of_replaceChildAndReparent outcome
  cases atParent.symm.trans exchange.atParent
  have putThere : result.node? parent = some (node.replaceIn index old new) := by
    simp [result_eq, node?_setNode _ _ _ _ (has_of_node? atParent)]
  rw [exchange.node?, if_pos rfl] at putThere
  cases putThere
  exact ⟨node, atNew, index, field, before, after, first, by simp [result_eq], exchange⟩

namespace Exchange

variable {node newNode : Node} {index : Nat} {field : FieldDescriptor}
  {before after : List (FieldDescriptor × NodeId)}
  (exchange : tree.Exchange result parent old new node (node.replaceIn index old new) newNode
    field before after)
  (sound : tree.Sound) (first : node.fieldOf? old = some index)

include exchange sound first

theorem replaced (sameSize : result.size = tree.size) : Replaced tree result parent old new where
  place := by
    refine ⟨node, node.replaceIn index old new, index, exchange.atParent, ?_, ?_,
      Node.exchanged_replaceIn new first⟩
    · rw [exchange.node?, if_pos rfl]
    · rw [← Node.fieldOf?_eq_firstField?, first]
  node? := fun id notParent => by rw [exchange.node?, if_neg notParent]
  parent?_new := exchange.parent?_new sound
  parent?_old := exchange.parent?_old_result
  not_holds_old := by
    intro holder
    rw [← exchange.parent?_iff sound, exchange.parent?_old_result]
    exact nofun
  parent? := fun id notOld notNew => exchange.parent?_of_ne notOld notNew
  below_new := exchange.intactBelow_new sound sameSize
  below_old := exchange.intactBelow_old sound sameSize

/-- The other way round the replacement is not refused, and gives the tree as it was. -/
theorem put_back : result.replaceChildAndReparent parent new old = .ok tree := by
  have absent := exchange.new_not_mem sound
  have recorded := exchange.parent?_old sound
  obtain ⟨held, _, atIndex, holdsChildren, oldPlaced⟩ := Node.exists_field_of_fieldOf? first
  obtain ⟨oldNode, atOld, oldFits⟩ := sound.fits parent node held old exchange.atParent oldPlaced
  have atParent : result.node? parent = some (node.replaceIn index old new) := by
    rw [exchange.node?, if_pos rfl]
  have newNotParent : new ≠ parent := fun same => exchange.notBelow 0 (congrArg some same.symm)
  have oldNotParent : old ≠ parent :=
    fun same => not_climb_of_parent? (sound.anchored old) recorded 0 (congrArg some same.symm)
  have atNew : result.node? new = some newNode := by
    rw [exchange.node?, if_neg newNotParent, exchange.atNew]
  have stillOld : result.node? old = some oldNode := by
    rw [exchange.node?, if_neg oldNotParent, atOld]
  have notAbove : result.isAncestorOrSelf old parent = false := by
    rw [Bool.eq_false_iff, Ne, (exchange.sound_result sound).isAncestorOrSelf_iff]
    rintro ⟨steps, reached⟩
    exact exchange.not_climb_old sound steps reached
  have sameFields : (node.replaceIn index old new).fields = node.fields :=
    congrArg Kind.fields exchange.sameKind
  rw [replaceChildAndReparent_of_fits atParent atNew stillOld exchange.fits.ne_root
    oldFits.ne_root (Node.fieldOf?_replaceIn new first absent) (sameFields ▸ atIndex)
    ((FieldDescriptor.Fits.checkClass_iff holdsChildren).2 oldFits)
    exchange.parent?_old_result notAbove, Node.replaceIn_replaceIn new first absent]
  refine congrArg Except.ok (ext_lookup (fun id => ?_) fun id => ?_)
  · rw [node?_recordParent, node?_recordParent, node?_setNode _ _ _ _ (has_of_node? atParent),
      exchange.node?]
    split
    · next same => rw [same, exchange.atParent]
    · rfl
  · rw [Tree.parent?_recordParent _ _ _ _ (by simpa [Has] using has_of_node? atNew),
      Tree.parent?_recordParent _ _ _ _ (by simpa [Has] using has_of_node? stillOld),
      parent?_setNode]
    split
    · next isNew => rw [isNew, exchange.loose]
    · next notNew =>
        split
        · next isOld => rw [isOld, recorded]
        · next notOld => exact exchange.parent?_of_ne notOld notNew

end Exchange

/-- However a tree that is new or parsed was edited: where a node takes the place of another one,
the rest of the tree stays as it is, and so does what is below both nodes.  The other node can then
take its place back, and the tree is the one before. -/
theorem replacement_undone (edited : tree.Edited)
    (outcome : Command.replaceChildAndReparent parent old new tree = .ok () result) :
    Replaced tree result parent old new ∧
      Command.replaceChildAndReparent parent new old result = .ok () tree := by
  have sound := sound_of_edited edited
  rw [Command.replaceChildAndReparent_eq_ok_iff] at outcome ⊢
  obtain ⟨_, _, _, _, _, _, first, sameSize, exchange⟩ := sound.exists_exchange_replaceIn outcome
  exact ⟨exchange.replaced sound first sameSize, exchange.put_back sound first⟩

/-- The right-hand literal of `(1) = 1` is copied, and the copy negated. -/
def negatedCopy : Tree :=
  [Edit.clone ⟨3⟩, .add (.column (.negated (some ⟨5⟩)))].foldl Edit.apply bracketComparison

/-- The negated copy takes the place of the bracket, and the bracket takes it back. -/
theorem replacement_undone_negatedCopy :
    negatedCopy.Edited ∧ ∃ result,
      Command.replaceChildAndReparent ⟨4⟩ ⟨2⟩ ⟨6⟩ negatedCopy = .ok () result ∧
      result.node? ⟨4⟩ = some (.condition (.comparison (some ⟨6⟩) .eq (some ⟨3⟩))) ∧
      Replaced negatedCopy result ⟨4⟩ ⟨2⟩ ⟨6⟩ ∧
      Command.replaceChildAndReparent ⟨4⟩ ⟨6⟩ ⟨2⟩ result = .ok () negatedCopy := by
  have edited : negatedCopy.Edited := Edited.foldl (.parsed parse_bracketComparison) _
  have outcome : ∃ result,
      Command.replaceChildAndReparent ⟨4⟩ ⟨2⟩ ⟨6⟩ negatedCopy = .ok () result ∧
      result.node? ⟨4⟩ = some (.condition (.comparison (some ⟨6⟩) .eq (some ⟨3⟩))) :=
    ⟨_, rfl, rfl⟩
  obtain ⟨result, outcome, atParent⟩ := outcome
  exact ⟨edited, result, outcome, atParent, replacement_undone edited outcome⟩

end Tree

end SelectTree
