/-
Module: SelectTree.Proofs.Tree.Valid
Purpose: the validation of a tree of which nothing is known but that its root hangs nowhere: that
  it comes to an end, what it finds, and what it leaves open.
Main exports: Tree.Attests, Tree.inspect?, Tree.validate_eq_ok_iff, Tree.exists_visits,
  Tree.validate_root, Tree.listed_once_iff

The numbers in fields may be of no node, nodes may be shared, and fields may lead in a circle.  The
walk down remembers nothing of where it was.  It ends because each node that it enters was found
before to record the node above it, so that the way back up has as many steps as the way down.
-/
import SelectTree.Proofs.Tree.Called
import SelectTree.Proofs.Tree.Preorder

namespace SelectTree

namespace Tree

/-- Every child of the node exists, records the node as its parent, and fits the field that holds
it. -/
def Attests (tree : Tree) (holder : NodeId) : Prop :=
  ∀ node field child, tree.node? holder = some node → (field, child) ∈ node.placements →
    ∃ found, tree.node? child = some found ∧ tree.parent? child = some holder ∧
      field.Fits found.nodeClass

/-- Why a walk that checks nodes stops before its end. -/
inductive Stop where
  /-- Something is wrong with a child. -/
  | refused (error : TreeError)
  /-- The node of a number is looked up that no node has. -/
  | outside (id : NodeId)
deriving Repr, DecidableEq

/-- Checks the pending nodes, each followed by what is below it, in at most as many steps as the
first argument says.  Nodes are looked up when their turn comes, and nothing is remembered of the
nodes before.  There is no answer if the steps do not suffice. -/
def inspect? (tree : Tree) : Nat → List NodeId → Option (Except Stop Unit)
  | _, [] => some (.ok ())
  | 0, _ :: _ => none
  | steps + 1, id :: pending =>
      match tree.node? id with
      | none => some (.error (.outside id))
      | some node =>
          match tree.checkNode id node.placements with
          | .error error => some (.error (.refused error))
          | .ok () => tree.inspect? steps (node.children ++ pending)

variable {tree : Tree}

/-! ### One node -/

theorem forM_eq_ok_iff {ε α : Type} {check : α → Except ε Unit} {items : List α} :
    items.forM check = .ok () ↔ ∀ item ∈ items, check item = .ok () := by
  induction items with
  | nil => exact ⟨fun _ => nofun, fun _ => rfl⟩
  | cons item items ih =>
      rw [List.forall_mem_cons, ← ih]
      change (check item >>= fun _ => items.forM check) = .ok () ↔ _
      rw [bind_eq_ok_iff]
      constructor
      · rintro ⟨⟨⟩, first, others⟩
        exact ⟨first, others⟩
      · rintro ⟨first, others⟩
        exact ⟨(), first, others⟩

theorem checkNode_eq_ok_iff {id : NodeId} {placements : List (FieldDescriptor × NodeId)}
    (holdsChildren : ∀ field child, (field, child) ∈ placements →
      ∃ demanded, field.type.accepts? = some demanded) :
    tree.checkNode id placements = .ok () ↔
      ∀ field child, (field, child) ∈ placements →
        ∃ found, tree.node? child = some found ∧ tree.parent? child = some id ∧
          field.Fits found.nodeClass := by
  induction placements with
  | nil => exact ⟨fun _ => nofun, fun _ => rfl⟩
  | cons placement placements ih =>
      obtain ⟨field, child⟩ := placement
      obtain ⟨demanded, isDemanded⟩ := holdsChildren field child List.mem_cons_self
      have others := ih fun field child member =>
        holdsChildren field child (List.mem_cons_of_mem _ member)
      rw [checkNode, bind_eq_ok_iff]
      simp only [require_eq_ok_iff, refuse_eq_ok_iff, not_not, ne_eq]
      constructor
      · rintro ⟨found, atChild, recorded, checked⟩
        obtain ⟨⟨⟩, admitted, goesOn⟩ := bind_eq_ok_iff.1 checked
        have fits := (FieldDescriptor.Fits.checkClass_iff isDemanded).1 admitted
        intro other otherChild member
        rcases List.mem_cons.1 member with same | further
        · cases same
          exact ⟨found, atChild, recorded, fits⟩
        · exact others.1 goesOn other otherChild further
      · intro attested
        obtain ⟨found, atChild, recorded, fits⟩ := attested field child List.mem_cons_self
        have admitted := (FieldDescriptor.Fits.checkClass_iff isDemanded).2 fits
        have goesOn := others.2 fun other otherChild member =>
          attested other otherChild (List.mem_cons_of_mem _ member)
        exact ⟨found, atChild, recorded, bind_eq_ok_iff.2 ⟨(), admitted, goesOn⟩⟩

theorem checkNode_iff_attests {id : NodeId} {node : Node} (found : tree.node? id = some node) :
    tree.checkNode id node.placements = .ok () ↔ tree.Attests id := by
  rw [checkNode_eq_ok_iff fun field child => Node.exists_accepts?_of_placement]
  constructor
  · intro attested other field child atId placed
    rw [found] at atId
    cases atId
    exact attested field child placed
  · intro attests field child placed
    exact attests node field child found placed

theorem Attests.of_holds {holder child : NodeId} (attests : tree.Attests holder)
    (holds : tree.Holds holder child) : tree.Has child ∧ tree.parent? child = some holder := by
  obtain ⟨node, found, held⟩ := holds
  obtain ⟨field, placed⟩ := Node.exists_placement held
  obtain ⟨_, atChild, recorded, _⟩ := attests node field child found placed
  exact ⟨has_of_node? atChild, recorded⟩

/-- A node is found in order if it and each of its children is. -/
theorem validateDownTo_succ {depth : Nat} {id : NodeId} :
    tree.validateDownTo (depth + 1) id = .ok () ↔
      tree.Has id ∧ tree.Attests id ∧
        ∀ child, tree.Holds id child → tree.validateDownTo depth child = .ok () := by
  have each {node : Node} (found : tree.node? id = some node) (child : NodeId) :
      child ∈ node.children ↔ tree.Holds id child := by
    rw [node.children_perm.mem_iff, Holds]
    constructor
    · intro held
      exact ⟨node, found, held⟩
    · rintro ⟨other, atId, held⟩
      rw [found] at atId
      cases atId
      exact held
  rw [validateDownTo, bind_eq_ok_iff]
  simp only [require_eq_ok_iff, bind_eq_ok_iff, forM_eq_ok_iff]
  constructor
  · rintro ⟨node, found, ⟨⟩, checked, below⟩
    refine ⟨has_of_node? found, (checkNode_iff_attests found).1 checked, ?_⟩
    intro child holds
    exact below child ((each found child).2 holds)
  · rintro ⟨present, attests, below⟩
    obtain ⟨node, found⟩ := exists_node?_of_has present
    refine ⟨node, found, (), (checkNode_iff_attests found).2 attests, ?_⟩
    intro child listed
    exact below child ((each found child).1 listed)

/-! ### Everything below a node that hangs nowhere -/

/-- If everything below is in order, nothing wrong is found down to any depth. -/
theorem validateDownTo_of_attests {depth : Nat} {id : NodeId} (present : tree.Has id)
    (attests : ∀ holder, tree.Below id holder → tree.Attests holder) :
    tree.validateDownTo depth id = .ok () := by
  induction depth generalizing id with
  | zero => rfl
  | succ depth ih =>
      refine validateDownTo_succ.2 ⟨present, attests id .refl, ?_⟩
      intro child holds
      have ⟨presentChild, _⟩ := (attests id .refl).of_holds holds
      exact ih presentChild fun holder reached => attests holder (.head holds reached)

section Loose

variable {top : NodeId} (present : tree.Has top) (loose : tree.parent? top = none)

include present loose

/-- What is found in order from the top is found in order from everything below it, down to the
depth that is left there; and the way up from there is the way by which it was reached. -/
theorem exists_climb_of_validate (valid : tree.validate top = .ok ()) {id : NodeId}
    (reached : tree.Below top id) :
    ∃ steps, tree.climb steps id = some top ∧
      tree.validateDownTo (tree.size - steps + 1) id = .ok () := by
  induction reached with
  | refl => exact ⟨0, rfl, valid⟩
  | @tail holder child _ holds ih =>
      obtain ⟨steps, leads, validHolder⟩ := ih
      obtain ⟨-, attests, below⟩ := validateDownTo_succ.1 validHolder
      have ⟨_, recorded⟩ := attests.of_holds holds
      have fewer := lt_size_of_climb (.top loose) present leads
      refine ⟨steps + 1, ?_, ?_⟩
      · rw [climb_succ, recorded, Option.bind_some, leads]
      · rw [show tree.size - (steps + 1) + 1 = tree.size - steps by omega]
        exact below child holds

/-- A node that hangs nowhere is valid exactly if everything below it is in order. -/
theorem validate_eq_ok_iff :
    tree.validate top = .ok () ↔ ∀ holder, tree.Below top holder → tree.Attests holder := by
  constructor
  · intro valid holder reached
    obtain ⟨steps, _, validHolder⟩ := exists_climb_of_validate present loose valid reached
    exact (validateDownTo_succ.1 validHolder).2.1
  · exact fun attests => validateDownTo_of_attests present attests

theorem recordedBelow_of_validate (valid : tree.validate top = .ok ()) :
    tree.RecordedBelow top where
  present := present
  anchored := .top loose
  recorded := fun holder _ reached holds =>
    (((validate_eq_ok_iff present loose).1 valid holder reached).of_holds holds).2

end Loose

/-! ### The walk -/

/-- So many steps lead the walk through the nodes and everything below them: it goes on with what is
pending, or stops for what is wrong. -/
def Visits (tree : Tree) (count : Nat) (ids : List NodeId) (answer : Except TreeError Unit) : Prop :=
  ∀ more pending, tree.inspect? (more + count) (ids ++ pending) =
    match answer with
    | .ok () => tree.inspect? more pending
    | .error error => some (.error (.refused error))

namespace Visits

theorem nil : tree.Visits 0 [] (.ok ()) :=
  fun _ _ => rfl

theorem append {few many : Nat} {ids others : List NodeId} {first second : Except TreeError Unit}
    (one : tree.Visits few ids first) (two : tree.Visits many others second) :
    tree.Visits (many + few) (ids ++ others) (first >>= fun _ => second) := by
  intro more pending
  rw [← Nat.add_assoc, List.append_assoc, one]
  cases first with
  | error error => rfl
  | ok _ => exact two more pending

/-- The children of a node are visited behind the node, unless something is wrong with one. -/
theorem node {count : Nat} {id : NodeId} {node : Node} {answer : Except TreeError Unit}
    (found : tree.node? id = some node) (below : tree.Visits count node.children answer) :
    tree.Visits (count + 1) [id] (tree.checkNode id node.placements >>= fun _ => answer) := by
  intro more pending
  rw [← Nat.add_assoc, List.singleton_append, inspect?]
  simp only [found]
  cases tree.checkNode id node.placements with
  | error error => rfl
  | ok _ => exact below more pending

theorem each {check : NodeId → Except TreeError Unit} {ids : List NodeId}
    (one : ∀ id ∈ ids, ∃ count, tree.Visits count [id] (check id)) :
    ∃ count, tree.Visits count ids (ids.forM check) := by
  induction ids with
  | nil => exact ⟨0, nil⟩
  | cons id ids ih =>
      obtain ⟨few, first⟩ := one id List.mem_cons_self
      obtain ⟨many, others⟩ := ih fun other later => one other (List.mem_cons_of_mem _ later)
      exact ⟨many + few, first.append others⟩

end Visits

/-- The walk comes back from a node that is so many steps below a node that hangs nowhere.  It finds
what is found down to any depth that reaches to the size of the tree. -/
theorem exists_visits {top : NodeId} (present : tree.Has top) (loose : tree.parent? top = none)
    {depth steps : Nat} {id : NodeId} (deep : tree.size < steps + depth) (presentId : tree.Has id)
    (leads : tree.climb steps id = some top) :
    ∃ count, tree.Visits count [id] (tree.validateDownTo depth id) := by
  -- By induction on the depth: a child that passes the check is one step further below.
  induction depth generalizing steps id with
  | zero =>
      have fewer := lt_size_of_climb (.top loose) present leads
      omega
  | succ depth ih =>
      obtain ⟨node, found⟩ := exists_node?_of_has presentId
      have opened : tree.validateDownTo (depth + 1) id =
          tree.checkNode id node.placements >>= fun _ =>
            node.children.forM (tree.validateDownTo depth) := by
        rw [validateDownTo, require_eq_ok_iff.2 found]
        rfl
      rw [opened]
      cases checked : tree.checkNode id node.placements with
      | error error =>
          refine ⟨1, fun more pending => ?_⟩
          simp [inspect?, found, checked, bind, Except.bind]
      | ok _ =>
          have attests := (checkNode_iff_attests found).1 checked
          obtain ⟨count, below⟩ : ∃ count, tree.Visits count node.children
              (node.children.forM (tree.validateDownTo depth)) := by
            refine Visits.each fun child listed => ?_
            have held := node.children_perm.mem_iff.1 listed
            obtain ⟨presentChild, recorded⟩ := attests.of_holds ⟨node, found, held⟩
            have leadsChild : tree.climb (steps + 1) child = some top := by
              rw [climb_succ, recorded, Option.bind_some, leads]
            exact ih (by omega) presentChild leadsChild
          exact ⟨count + 1, checked ▸ below.node found⟩

/-- An answer is the answer with more steps, too. -/
theorem inspect?_mono {few many : Nat} {pending : List NodeId} {answer : Except Stop Unit}
    (le : few ≤ many) (answered : tree.inspect? few pending = some answer) :
    tree.inspect? many pending = some answer := by
  induction few generalizing many pending with
  | zero =>
      cases pending with
      | nil => simpa [inspect?] using answered
      | cons id pending => cases answered
  | succ few ih =>
      obtain ⟨more, rfl⟩ := Nat.exists_eq_add_of_le le
      cases pending with
      | nil => simpa [inspect?] using answered
      | cons id pending =>
          rw [show few + 1 + more = few + more + 1 by omega]
          rw [inspect?] at answered ⊢
          cases found : tree.node? id with
          | none => simpa [found] using answered
          | some node =>
              cases checked : tree.checkNode id node.placements with
              | error error => simpa [found, checked] using answered
              | ok _ =>
                  simp only [found, checked] at answered ⊢
                  exact ih (Nat.le_add_right few more) answered

/-- Whatever the fields of a tree hold and whatever parents are recorded in it, as long as its root
hangs nowhere: the walk that checks everything below the root ends, and never looks up a node
that does not exist.  It finds nothing wrong exactly if for each node that fields lead to from the
root every child exists, records that node, and fits its field. -/
theorem validate_root {slot : Slot} (isRoot : tree.node? .root = some (.root slot))
    (loose : tree.parent? .root = none) :
    (∃ steps, ∀ more, steps ≤ more →
      tree.inspect? more [.root] = some ((tree.validate .root).mapError .refused)) ∧
    (∀ steps id, tree.inspect? steps [.root] ≠ some (.error (.outside id))) ∧
    (tree.validate .root = .ok () ↔
      ∀ holder, tree.Below .root holder → tree.Attests holder) := by
  have present := has_of_node? isRoot
  obtain ⟨count, visits⟩ : ∃ count, tree.Visits count [.root] (tree.validate .root) :=
    exists_visits present loose (by omega) present (rfl : tree.climb 0 .root = some .root)
  have answer (more : Nat) :
      tree.inspect? (more + count) [.root] = some ((tree.validate .root).mapError .refused) := by
    have visited := visits more []
    rw [List.append_nil] at visited
    rw [visited]
    cases tree.validate .root with
    | error error => rfl
    | ok _ => simp [inspect?, Except.mapError]
  refine ⟨⟨count, ?_⟩, ?_, validate_eq_ok_iff present loose⟩
  · intro more le
    obtain ⟨others, rfl⟩ := Nat.exists_eq_add_of_le' le
    exact answer others
  · intro steps id answered
    have later := inspect?_mono (Nat.le_add_right steps count) answered
    rw [answer] at later
    cases outcome : tree.validate .root with
    | error error => simp [outcome, Except.mapError] at later
    | ok _ => simp [outcome, Except.mapError] at later

/-- Two brackets hold each other, and a sign beside them holds nothing that exists. -/
def circle : Tree :=
  { entries := #[
      { node := .root (some ⟨1⟩), parent := none },
      { node := .column (.bracket (some ⟨2⟩)), parent := some ⟨0⟩ },
      { node := .column (.bracket (some ⟨1⟩)), parent := some ⟨1⟩ },
      { node := .column (.negated (some ⟨9⟩)), parent := some ⟨3⟩ }] }

/-- The circle is refused before it is entered again. -/
theorem validate_root_circle :
    circle.node? .root = some (.root (some ⟨1⟩)) ∧ circle.parent? .root = none ∧
      (∃ steps, ∀ more, steps ≤ more →
        circle.inspect? more [.root] = some (.error (.refused (.childNotFound ⟨2⟩ ⟨1⟩)))) ∧
      ¬ ∀ holder, circle.Below .root holder → circle.Attests holder := by
  have isRoot : circle.node? .root = some (.root (some ⟨1⟩)) := by decide
  have loose : circle.parent? .root = none := by decide
  have refused : circle.validate .root = .error (.childNotFound ⟨2⟩ ⟨1⟩) := by decide +kernel
  obtain ⟨ends, -, inOrder⟩ := validate_root isRoot loose
  rw [refused] at ends inOrder
  exact ⟨isRoot, loose, ends, fun attests => nomatch inOrder.2 attests⟩

/-! ### What a valid tree leaves open -/

/-- Whatever was done to a tree whose root hangs nowhere: if the root is valid, then the walk over
everything below it comes to an end, and each node that it lists is held by one node only.  It
lists no node twice exactly if none of these nodes holds a child in two places. -/
theorem listed_once_iff (loose : tree.parent? .root = none)
    (valid : tree.validate .root = .ok ()) :
    ∃ order, tree.descendants? .root = some order ∧
      (∀ first second child, first ∈ order → second ∈ order → tree.Holds first child →
        tree.Holds second child → first = second) ∧
      (order.Nodup ↔ ∀ holder node, holder ∈ order → tree.node? holder = some node →
        node.childIds.Nodup) := by
  have present : tree.Has .root := (validateDownTo_succ.1 valid).1
  have below := recordedBelow_of_validate present loose valid
  obtain ⟨order, listed⟩ := below.exists_preorder?
  have isBelow := mem_preorder?_iff_below listed
  refine ⟨order, descendants?_of_preorder? (Nat.le_succ _) listed, ?_, ?_⟩
  · intro first second child inFirst inSecond holdsFirst holdsSecond
    have one := below.recorded first child ((isBelow first).1 inFirst) holdsFirst
    have two := below.recorded second child ((isBelow second).1 inSecond) holdsSecond
    rw [one] at two
    exact Option.some.inj two
  · constructor
    · intro nodup holder node member found
      exact nodup_childIds_of_preorder? listed nodup ((isBelow holder).1 member) found
    · intro once
      refine below.nodup_preorder? listed fun holder node reached found => ?_
      exact once holder node ((isBelow holder).2 reached) found

/-- The tree of `(1) = 1` with the literal on the right also put in the place of the bracket. -/
def doubledLiteral : Tree :=
  Call.apply bracketComparison (.replaceChild ⟨4⟩ ⟨2⟩ ⟨3⟩)

/-- The tree is valid, and the comparison holds the literal in both its places. -/
theorem listed_twice_doubledLiteral :
    doubledLiteral.Called ∧ doubledLiteral.parent? .root = none ∧
      doubledLiteral.validate .root = .ok () ∧
      doubledLiteral.descendants? .root = some [⟨0⟩, ⟨4⟩, ⟨3⟩, ⟨3⟩] ∧
      ¬ ∀ holder node, holder ∈ [⟨0⟩, ⟨4⟩, ⟨3⟩, ⟨3⟩] → doubledLiteral.node? holder = some node →
        node.childIds.Nodup := by
  have called : doubledLiteral.Called := .apply _ (.parsed parse_bracketComparison)
  have loose : doubledLiteral.parent? .root = none := by decide +kernel
  have valid : doubledLiteral.validate .root = .ok () := by decide +kernel
  have walked : doubledLiteral.descendants? .root = some [⟨0⟩, ⟨4⟩, ⟨3⟩, ⟨3⟩] := by
    decide +kernel
  obtain ⟨order, listed, -, once⟩ := listed_once_iff loose valid
  rw [walked] at listed
  cases listed
  exact ⟨called, loose, valid, walked, fun nodup => absurd (once.2 nodup) (by decide)⟩

end Tree

end SelectTree
