/-
Module: SelectTree.Proofs.Tree.Duplicate
Purpose: the copy of a node is like the original, node by node and place by place, and is new.
Main exports: Tree.Twin, Tree.Renamed, Tree.Copied.renamed, Tree.Renamed.preorder?,
  Tree.Duplicate, Tree.clone_duplicates

Which node of the copy stands for which of the original is said by a renaming of numbers.  It is
put together along the way in which the copy comes about; renamings of parts agree because the
pre-order of a sound tree lists no node twice.
-/
import Mathlib.Data.List.Perm.Basic
import SelectTree.Proofs.Node.Rename
import SelectTree.Proofs.Tree.Copied
import SelectTree.Proofs.Tree.Edited

namespace SelectTree

/-! ### Contents that are alike, and renamed contents -/

namespace FieldValue

theorem Alike.eq_rename {value copy : FieldValue} {rename : NodeId → NodeId}
    (alike : value.Alike copy) (renamed : copy.childIds = value.childIds.map rename) :
    copy = value.rename rename := by
  cases value with
  | child slot =>
      cases copy with
      | child copied =>
          simp only [childIds] at renamed
          simp only [FieldValue.rename]
          cases slot <;> cases copied <;> simp_all
      | _ => cases alike
  | children slots =>
      cases copy with
      | children copies =>
          simp only [Alike] at alike
          simp only [childIds] at renamed
          simp only [FieldValue.rename, FieldValue.children.injEq]
          induction alike with
          | nil => rfl
          | @cons slot copied _ _ same _ ih => cases slot <;> cases copied <;> simp_all
      | _ => cases alike
  | _ =>
      cases alike
      rfl

theorem eq_map_rename {values copies : List FieldValue} {rename : NodeId → NodeId}
    (alike : List.Forall₂ Alike values copies)
    (renamed : copies.flatMap childIds = (values.flatMap childIds).map rename) :
    copies = values.map (FieldValue.rename rename) := by
  induction alike with
  | nil => rfl
  | @cons value copy values copies first _ ih =>
      rw [List.flatMap_cons, List.flatMap_cons, List.map_append] at renamed
      have length : copy.childIds.length = (value.childIds.map rename).length := by
        rw [List.length_map, first.sameShape.length_eq]
      obtain ⟨here, behind⟩ := List.append_inj renamed length
      rw [List.map_cons, first.eq_rename here, ih behind]

end FieldValue

namespace Tree

/-! ### Pre-orders of several nodes -/

theorem mem_preorder?_self {tree : Tree} {depth : Nat} {id : NodeId} {order : List NodeId}
    (listed : tree.preorder? depth id = some order) : id ∈ order := by
  cases depth with
  | zero => cases listed
  | succ depth =>
      obtain ⟨node, below, _, _, rfl⟩ := preorder?_succ.1 listed
      exact List.mem_cons_self

theorem mem_flatten_of_listed {tree : Tree} {depth : Nat} {ids : List NodeId}
    {orders : List (List NodeId)}
    (listed : List.Forall₂ (fun id order => tree.preorder? depth id = some order) ids orders)
    {id : NodeId} (member : id ∈ ids) : id ∈ orders.flatten := by
  obtain ⟨order, inside, isOrder⟩ := exists_right_of_mem listed member
  exact List.mem_flatten.2 ⟨order, inside, mem_preorder?_self isOrder⟩

/-- The children of a node in the order in which they are declared, instead of the order in
which they are walked. -/
theorem exists_orders_of_childIds {tree : Tree} {depth : Nat} {node : Node}
    {below : List (List NodeId)}
    (listed : List.Forall₂ (fun child order => tree.preorder? depth child = some order)
      node.children below) :
    ∃ orders, List.Forall₂ (fun child order => tree.preorder? depth child = some order)
      node.childIds orders ∧ orders.flatten.Perm below.flatten := by
  obtain ⟨orders, isListed, perm⟩ := List.perm_comp_forall₂ node.children_perm.symm listed
  exact ⟨orders, isListed, perm.flatten⟩

/-! ### Renamed parts of a tree -/

/-- The number stands for a node of the same kind with the same contents, but for the numbers of
its children. -/
def Twin (before after : Tree) (rename : NodeId → NodeId) (id : NodeId) : Prop :=
  ∃ node twin, before.node? id = some node ∧ after.node? (rename id) = some twin ∧
    twin.kind = node.kind ∧ twin.values = node.values.map (FieldValue.rename rename)

/-- The nodes of a list, all their children among them, have twins among the nodes from a number
on. -/
structure Renamed (before after : Tree) (start : Nat) (rename : NodeId → NodeId)
    (ids : List NodeId) : Prop where
  closed : ∀ id ∈ ids, ∀ child, before.Holds id child → child ∈ ids
  fresh : ∀ id ∈ ids, start ≤ (rename id).index
  twin : ∀ id ∈ ids, Twin before after rename id

namespace Renamed

variable {before after : Tree} {start : Nat} {rename : NodeId → NodeId} {ids : List NodeId}

theorem nil : Renamed before after start rename [] := by
  constructor <;> simp

theorem append {more : List NodeId} (one : Renamed before after start rename ids)
    (two : Renamed before after start rename more) :
    Renamed before after start rename (ids ++ more) where
  closed := by
    intro id member child held
    rcases List.mem_append.1 member with front | back
    · exact List.mem_append_left _ (one.closed id front child held)
    · exact List.mem_append_right _ (two.closed id back child held)
  fresh := List.forall_mem_append.2 ⟨one.fresh, two.fresh⟩
  twin := List.forall_mem_append.2 ⟨one.twin, two.twin⟩

variable (renamed : Renamed before after start rename ids)

include renamed

/-- Only what becomes of the listed nodes matters. -/
theorem congr {other : NodeId → NodeId} (same : ∀ id ∈ ids, other id = rename id) :
    Renamed before after start other ids where
  closed := renamed.closed
  fresh := by
    intro id member
    rw [same id member]
    exact renamed.fresh id member
  twin := by
    intro id member
    obtain ⟨node, twin, atId, atTwin, kind, values⟩ := renamed.twin id member
    refine ⟨node, twin, atId, by rw [same id member, atTwin], kind, ?_⟩
    rw [values]
    apply List.map_congr_left
    intro value valueMember
    apply FieldValue.rename_congr
    intro child held
    have inside : before.Holds id child :=
      ⟨node, atId, List.mem_flatMap.2 ⟨value, valueMember, held⟩⟩
    exact (same child (renamed.closed id member child inside)).symm

/-- The order of the list does not matter. -/
theorem perm {more : List NodeId} (perm : ids.Perm more) :
    Renamed before after start rename more where
  closed := fun id member child held =>
    perm.mem_iff.1 (renamed.closed id (perm.mem_iff.2 member) child held)
  fresh := fun id member => renamed.fresh id (perm.mem_iff.2 member)
  twin := fun id member => renamed.twin id (perm.mem_iff.2 member)

theorem cons {id : NodeId} (closed : ∀ child, before.Holds id child → child ∈ ids)
    (fresh : start ≤ (rename id).index) (twin : Twin before after rename id) :
    Renamed before after start rename (id :: ids) where
  closed := by
    intro holder member child held
    rcases List.mem_cons.1 member with rfl | other
    · exact List.mem_cons_of_mem _ (closed child held)
    · exact List.mem_cons_of_mem _ (renamed.closed holder other child held)
  fresh := List.forall_mem_cons.2 ⟨fresh, renamed.fresh⟩
  twin := List.forall_mem_cons.2 ⟨twin, renamed.twin⟩

theorem weaken {earlier : Nat} (le : earlier ≤ start) :
    Renamed before after earlier rename ids where
  closed := renamed.closed
  fresh := fun id member => le_trans le (renamed.fresh id member)
  twin := renamed.twin

theorem later {last : Tree} (continues : Continues after last) :
    Renamed before last start rename ids where
  closed := renamed.closed
  fresh := renamed.fresh
  twin := by
    intro id member
    obtain ⟨node, twin, atId, atTwin, same⟩ := renamed.twin id member
    exact ⟨node, twin, atId, by rw [continues.node? _ (has_of_node? atTwin), atTwin], same⟩

/-- The twins of a pre-order, in the same order, are a pre-order. -/
theorem preorder? {depth : Nat} {id : NodeId} {order : List NodeId}
    (listed : before.preorder? depth id = some order) (member : id ∈ ids) :
    after.preorder? depth (rename id) = some (order.map rename) := by
  induction depth generalizing id order with
  | zero => cases listed
  | succ depth ih =>
      obtain ⟨node, below, atId, listedBelow, rfl⟩ := preorder?_succ.1 listed
      obtain ⟨_, twin, atIdAgain, atTwin, _, values⟩ := renamed.twin id member
      rw [atId] at atIdAgain
      cases atIdAgain
      have inside : ∀ child ∈ node.children, child ∈ ids := by
        intro child held
        exact renamed.closed id member child ⟨node, atId, node.children_perm.mem_iff.1 held⟩
      have twins : List.Forall₂ (fun child order => after.preorder? depth child = some order)
          twin.children (below.map (List.map rename)) := by
        rw [Node.children_of_rename values, List.forall₂_map_left_iff,
          List.forall₂_map_right_iff]
        exact (List.forall₂_and_left _ _).2 ⟨inside, listedBelow⟩ |>.imp
          fun child order both => ih both.2 both.1
      apply preorder?_succ.2
      exact ⟨twin, _, atTwin, twins, by rw [List.map_cons, List.map_flatten]⟩

end Renamed

/-! ### The renaming that copying makes -/

/-- A copy that is put over the twins of the children of a node is the twin of the node. -/
theorem Renamed.over {before after : Tree} {start : Nat} {rename : NodeId → NodeId}
    {below : List NodeId} {id : NodeId} {node : Node} {values : List FieldValue}
    (renamed : Renamed before after start rename below) (atId : before.node? id = some node)
    (absent : id ∉ below) (children : ∀ child ∈ node.childIds, child ∈ below)
    (alike : List.Forall₂ FieldValue.Alike node.values values)
    (copies : node.childIds.map rename = values.flatMap FieldValue.childIds)
    (known : ∀ copy ∈ values.flatMap FieldValue.childIds, after.Has copy)
    (le : start ≤ after.size) :
    ∃ extended, extended id = after.nextId ∧
      Renamed before (after.attach (node.withValues values)) start extended (id :: below) := by
  have sameShapes := FieldValue.sameShapes alike
  have typed := Typed.of_sameShape node.values_typed sameShapes
  rw [← Node.childIds_withValues sameShapes] at known
  let extended := Function.update rename id after.nextId
  have atTop : extended id = after.nextId := Function.update_self ..
  have same : ∀ original ∈ below, extended original = rename original := by
    intro original member
    have other : original ≠ id := by
      rintro rfl
      exact absent member
    exact Function.update_of_ne other ..
  have copiesNow : values.flatMap FieldValue.childIds =
      (node.values.flatMap FieldValue.childIds).map extended := by
    rw [← copies]
    apply List.map_congr_left
    intro child held
    exact (same child (children child held)).symm
  have twin : Twin before (after.attach (node.withValues values)) extended id := by
    refine ⟨node, node.withValues values, atId, ?_, Node.kind_withValues typed, ?_⟩
    · rw [atTop, node?_attach_nextId]
    · rw [Node.values_withValues typed]
      exact FieldValue.eq_map_rename alike copiesNow
  have closed : ∀ child, before.Holds id child → child ∈ below := by
    rintro child ⟨holder, atHolder, held⟩
    rw [atId] at atHolder
    cases atHolder
    exact children child held
  have under := (renamed.later ((Continues.refl after).attach known)).congr same
  exact ⟨extended, atTop, under.cons closed (by rw [atTop]; exact le) twin⟩

/-- Renamings of parts that have no node in common are one renaming. -/
theorem Renamed.join {before after : Tree} {start : Nat} {one two : NodeId → NodeId}
    {ids more : List NodeId} (first : Renamed before after start one ids)
    (second : Renamed before after start two more) (disjoint : ids.Disjoint more) :
    ∃ joined, (∀ id ∈ ids, joined id = one id) ∧ (∀ id ∈ more, joined id = two id) ∧
      Renamed before after start joined (ids ++ more) := by
  refine ⟨fun id => if id ∈ ids then one id else two id, ?_, ?_, ?_⟩
  · intro id member
    exact if_pos member
  · intro id member
    exact if_neg fun front => disjoint front member
  · apply Renamed.append
    · exact first.congr fun id member => if_pos member
    · exact second.congr fun id member => if_neg fun front => disjoint front member

mutual

/-- The copy has as many new nodes as the original has nodes, and they are its twins. -/
theorem Copied.renamed {before tree after : Tree} {id copy : NodeId} {depth : Nat}
    {order : List NodeId} (sound : before.Sound) (continues : Continues before tree)
    (listed : before.preorder? depth id = some order) :
    Copied tree id copy after →
      after.size = tree.size + order.length ∧
        ∃ rename, rename id = copy ∧ Renamed before after tree.size rename order
  | .node found alike below => by
      cases depth with
      | zero => cases listed
      | succ depth =>
          have nodup := sound.nodup_preorder? listed
          obtain ⟨node, walked, atId, listedBelow, rfl⟩ := preorder?_succ.1 listed
          rw [continues.node? id (has_of_node? atId), atId] at found
          obtain rfl := Option.some.inj found
          obtain ⟨orders, listedEach, perm⟩ := exists_orders_of_childIds listedBelow
          rw [List.nodup_cons, ← perm.nodup_iff, ← perm.mem_iff] at nodup
          obtain ⟨absent, nodupBelow⟩ := nodup
          obtain ⟨size, rename, copies, renamed⟩ :=
            below.renamed sound continues listedEach nodupBelow
          obtain ⟨made, known⟩ := below.continues
          have children : ∀ child ∈ node.childIds, child ∈ orders.flatten :=
            fun child held => mem_flatten_of_listed listedEach held
          obtain ⟨extended, atTop, renamedAll⟩ :=
            renamed.over atId absent children alike copies known made.size_le
          constructor
          · rw [size_attach, size, perm.length_eq, List.length_cons, Nat.add_assoc]
          · exact ⟨extended, atTop, renamedAll.perm (perm.cons id)⟩

theorem CopiedEach.renamed {before tree after : Tree} {ids copies : List NodeId} {depth : Nat}
    {orders : List (List NodeId)} (sound : before.Sound) (continues : Continues before tree)
    (listed : List.Forall₂ (fun id order => before.preorder? depth id = some order) ids orders)
    (nodup : orders.flatten.Nodup) :
    CopiedEach tree ids copies after →
      after.size = tree.size + orders.flatten.length ∧
        ∃ rename, ids.map rename = copies ∧
          Renamed before after tree.size rename orders.flatten
  | .nil => by
      cases listed
      exact ⟨rfl, id, rfl, .nil⟩
  | .cons first others => by
      cases listed with
      | @cons _ order _ orders isListed areListed =>
          rw [List.flatten_cons, List.nodup_append'] at nodup
          obtain ⟨size, rename, isCopy, renamed⟩ := first.renamed sound continues isListed
          obtain ⟨made, _⟩ := first.continues
          obtain ⟨madeOn, _⟩ := others.continues
          obtain ⟨sizeOn, renameOn, areCopies, renamedOn⟩ :=
            others.renamed sound (continues.trans made) areListed nodup.2.1
          obtain ⟨joined, front, back, renamedAll⟩ :=
            (renamed.later madeOn).join (renamedOn.weaken made.size_le) nodup.2.2
          constructor
          · rw [sizeOn, size, List.flatten_cons, List.length_append, Nat.add_assoc]
          · refine ⟨joined, ?_, renamedAll⟩
            rw [List.map_cons, front _ (mem_preorder?_self isListed), isCopy, ← areCopies]
            congr 1
            apply List.map_congr_left
            intro original member
            exact back original (mem_flatten_of_listed areListed member)

end

/-! ### Copies of nodes of a sound tree -/

/-- How the copy of a node and of everything below it stands to the original. -/
structure Duplicate (before after : Tree) (id copy : NodeId) (order : List NodeId)
    (rename : NodeId → NodeId) : Prop where
  /-- The nodes of the copy are the renamed nodes of the original, in the same order. -/
  listed : before.descendants? id = some order
  relisted : after.descendants? copy = some (order.map rename)
  /-- They are new, there are no others that are new, and none stands for two. -/
  fresh : ∀ original ∈ order, before.size ≤ (rename original).index
  size_eq : after.size = before.size + order.length
  nodup : (order.map rename).Nodup
  /-- Nothing happens to what was there before. -/
  node? : ∀ old, before.Has old → after.node? old = before.node? old
  parent? : ∀ old, before.Has old → after.parent? old = before.parent? old
  /-- Kinds and plain values are those of the original, and so are the places of the children. -/
  twin : ∀ original ∈ order, Twin before after rename original
  loose : after.parent? copy = none
  adopted : ∀ original ∈ order, ∀ child, after.Holds (rename original) child →
    after.parent? child = some (rename original)

/-- Each node of a sound tree has a copy that is like it and shares nothing with it. -/
theorem Sound.exists_duplicate {tree : Tree} (sound : tree.Sound) {id : NodeId}
    (present : tree.Has id) :
    ∃ copy after order rename, tree.clone id = (some copy, after) ∧
      Duplicate tree after id copy order rename := by
  obtain ⟨copy, after, made, copied⟩ := sound.exists_copied present
  obtain ⟨order, listed⟩ := sound.exists_preorder? present
  obtain ⟨size_eq, rename, rfl, renamed⟩ := copied.renamed sound (.refl tree) listed
  have grown := sound.grown_clone id
  rw [made] at grown
  have copies := sound.copies_clone present made
  have relisted := renamed.preorder? listed (mem_preorder?_self listed)
  have enough : tree.size ≤ after.size + 1 := Nat.le_succ_of_le grown.size_le
  exact ⟨rename id, after, order, rename, made,
    { listed := descendants?_of_preorder? (Nat.le_succ tree.size) listed
      relisted := descendants?_of_preorder? enough relisted
      fresh := renamed.fresh
      size_eq
      nodup := grown.sound.nodup_preorder? relisted
      node? := grown.node?
      parent? := grown.parent?
      twin := renamed.twin
      loose := copies.loose _ (List.mem_singleton.2 rfl)
      adopted := fun _ _ child held => (grown.sound.parent?_iff _ child).2 held }⟩

/-- However a tree that is new or parsed was edited: each of its nodes has a copy that hangs
nowhere, is new from top to bottom, and is the original with other numbers. -/
theorem clone_duplicates {tree : Tree} (edited : tree.Edited) {id : NodeId}
    (present : tree.Has id) :
    ∃ copy after order rename, tree.clone id = (some copy, after) ∧
      Duplicate tree after id copy order rename :=
  (sound_of_edited edited).exists_duplicate present

/-- The comparison of `(1) = 1` has a copy, with the bracket and both literals. -/
theorem clone_duplicates_bracketComparison :
    bracketComparison.Edited ∧ bracketComparison.Has ⟨4⟩ ∧
      ∃ copy after order rename, bracketComparison.clone ⟨4⟩ = (some copy, after) ∧
        Duplicate bracketComparison after ⟨4⟩ copy order rename := by
  have edited : bracketComparison.Edited := .parsed parse_bracketComparison
  have present : bracketComparison.Has ⟨4⟩ := by
    unfold Has
    decide
  exact ⟨edited, present, clone_duplicates edited present⟩

end Tree

end SelectTree
