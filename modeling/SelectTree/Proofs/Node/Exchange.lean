/-
Module: SelectTree.Proofs.Node.Exchange
Purpose: the field that holds the first occurrence of a child, and the node with another child
  there.
Main exports: Node.places, Node.map_snd_places, Node.firstField?, Node.fieldOf?_eq_firstField?,
  Node.Exchanged, Node.exchanged_replaceIn, Node.children_replaceIn, Node.fieldOf?_replaceIn,
  Node.replaceIn_replaceIn

The children of a node are listed by going through its fields twice, first for single children and
then for lists.  A search for a child goes through them twice as well, and stops early.
-/
import SelectTree.Proofs.Node.Placement

namespace SelectTree

namespace FieldValue

/-- The child of a field for one child. -/
def single : FieldValue → List NodeId
  | .child slot => slot.toList
  | _ => []

/-- The children of a list. -/
def listed : FieldValue → List NodeId
  | .children slots => slots.filterMap id
  | _ => []

variable {value : FieldValue} {child : NodeId}

theorem isChild_iff : value.isChild child = true ↔ child ∈ value.single := by
  cases value <;> simp [isChild, single]

theorem listsChild_iff : value.listsChild child = true ↔ child ∈ value.listed := by
  cases value <;> simp [listsChild, listed]

/-- A field holds a child alone or in a list. -/
theorem mem_childIds_iff :
    child ∈ value.childIds ↔ value.isChild child = true ∨ value.listsChild child = true := by
  cases value <;> simp [childIds, isChild, listsChild]

/-- A field that holds one child lists none. -/
theorem listed_eq_nil (held : value.isChild child = true) : value.listed = [] := by
  cases value with
  | children slots => cases held
  | _ => rfl

theorem single_eq_nil (held : value.listsChild child = true) : value.single = [] := by
  cases value with
  | child slot => cases held
  | _ => rfl

/-- Contents that hold a child are this child, or a list with a first place of it. -/
theorem eq_of_held (held : value.isChild child = true ∨ value.listsChild child = true) :
    value = .child (some child) ∨
      ∃ front back, some child ∉ front ∧ value = .children (front ++ some child :: back) := by
  cases value with
  | child slot =>
      left
      simpa [isChild, listsChild] using held
  | children slots =>
      right
      have listed : some child ∈ slots := by simpa [isChild, listsChild] using held
      obtain ⟨front, back, rfl, first⟩ := List.eq_append_cons_of_mem listed
      exact ⟨front, back, first, rfl⟩
  | _ => simp [isChild, listsChild] at held

/-- Of several equal children in a list, the first one is replaced. -/
theorem replaceFirst_append {front back : List Slot} {old : NodeId} (new : NodeId)
    (first : some old ∉ front) :
    (children (front ++ some old :: back)).replaceFirst old new =
      .children (front ++ some new :: back) := by
  rw [replaceFirst, List.replace_append_right first, List.replace_cons_self]

/-- A child that takes the first place of another one, and was not there, gives it back. -/
theorem replaceFirst_replaceFirst {old new : NodeId}
    (held : value.isChild old = true ∨ value.listsChild old = true)
    (absent : new ∉ value.childIds) :
    (value.replaceFirst old new).replaceFirst new old = value := by
  rcases eq_of_held held with rfl | ⟨front, back, first, rfl⟩
  · simp [replaceFirst]
  · have notBefore : some new ∉ front := by
      intro member
      exact absent (by simp [childIds, member])
    rw [replaceFirst_append new first, replaceFirst_append old notBefore]

variable (value) (old new : NodeId)

/-- The exchange is the same for a child that is held alone. -/
theorem single_replaceFirst :
    (value.replaceFirst old new).single = value.single.replace old new := by
  cases value with
  | child slot =>
      cases slot with
      | none => rfl
      | some held =>
          by_cases same : held = old
          · simp [replaceFirst, single, same]
          · have differ : (old == held) = false := beq_false_of_ne (Ne.symm same)
            simp [replaceFirst, single, same, List.replace_cons, differ]
  | _ => rfl

theorem filterMap_replace (slots : List Slot) :
    (slots.replace (some old) (some new)).filterMap id = (slots.filterMap id).replace old new := by
  induction slots with
  | nil => rfl
  | cons slot slots ih =>
      cases slot with
      | none => simpa [List.replace_cons] using ih
      | some held =>
          by_cases same : old = held
          · simp [same]
          · have differ : (old == held) = false := beq_false_of_ne same
            simpa [List.replace_cons, differ] using ih

/-- The exchange is the same for listed children. -/
theorem listed_replaceFirst :
    (value.replaceFirst old new).listed = value.listed.replace old new := by
  cases value with
  | children slots => exact filterMap_replace old new slots
  | _ => rfl

end FieldValue

namespace Node

open FieldValue (single listed)

/-! ### The first occurrence of a child -/

/-- Children in fields, each with the number of its field, when the first field has the given
number. -/
def numbered (childrenOf : FieldValue → List NodeId) (start : Nat) (values : List FieldValue) :
    List (Nat × NodeId) :=
  (values.zipIdx start).flatMap fun (value, index) =>
    (childrenOf value).map fun child => (index, child)

/-- The children of a node as they are listed, each with the number of the field that holds it. -/
def places (node : Node) : List (Nat × NodeId) :=
  numbered single 0 node.values ++ numbered listed 0 node.values

/-- The number of the field that holds the first occurrence of a child. -/
def firstField? (node : Node) (child : NodeId) : Option Nat :=
  (node.places.find? fun place => place.2 == child).map Prod.fst

section Numbered

variable (childrenOf : FieldValue → List NodeId)

theorem numbered_cons (start : Nat) (value : FieldValue) (values : List FieldValue) :
    numbered childrenOf start (value :: values) =
      ((childrenOf value).map fun child => (start, child)) ++
        numbered childrenOf (start + 1) values := by
  simp [numbered]

theorem map_snd_numbered (start : Nat) (values : List FieldValue) :
    (numbered childrenOf start values).map Prod.snd = values.flatMap childrenOf := by
  induction values generalizing start with
  | nil => rfl
  | cons value values ih => simp [numbered_cons, ih, Function.comp_def]

/-- The first occurrence is in the first field that holds the child. -/
theorem find?_numbered {holds : FieldValue → Bool} {child : NodeId}
    (holds_iff : ∀ value, holds value = true ↔ child ∈ childrenOf value) (start : Nat)
    (values : List FieldValue) :
    ((numbered childrenOf start values).find? fun place => place.2 == child).map Prod.fst =
      (values.findIdx? holds).map (start + ·) := by
  induction values generalizing start with
  | nil => rfl
  | cons value values ih =>
      rw [numbered_cons, List.find?_append, List.findIdx?_cons]
      by_cases here : holds value = true
      · have found : (childrenOf value).find? (· == child) = some child := by
          have present : ((childrenOf value).find? (· == child)).isSome :=
            List.find?_isSome.2 ⟨child, (holds_iff value).1 here, beq_self_eq_true child⟩
          obtain ⟨other, isFirst⟩ := Option.isSome_iff_exists.1 present
          have same := List.find?_some isFirst
          rw [isFirst, beq_iff_eq.1 same]
        simp only [here, List.find?_map, Function.comp_def, found, Option.map_some, Option.some_or,
          if_true, Nat.add_zero]
      · have absent : (childrenOf value).find? (· == child) = none := by
          rw [List.find?_eq_none]
          intro other member same
          rw [eq_of_beq same] at member
          exact here ((holds_iff value).2 member)
        simp only [List.find?_map, Function.comp_def, absent, Option.map_none, Option.none_or,
          ih, here, Bool.false_eq_true, if_false, Option.map_map]
        exact Option.map_congr fun index _ => by omega

/-- Where the first field that holds the child is changed, the first occurrence is replaced. -/
theorem flatMap_modify_first {holds : FieldValue → Bool} {old new : NodeId}
    (holds_iff : ∀ value, holds value = true ↔ old ∈ childrenOf value)
    {change : FieldValue → FieldValue}
    (replaces : ∀ value, childrenOf (change value) = (childrenOf value).replace old new)
    {values : List FieldValue} {index : Nat} (first : values.findIdx? holds = some index) :
    (values.modify index change).flatMap childrenOf =
      (values.flatMap childrenOf).replace old new := by
  induction values generalizing index with
  | nil => cases first
  | cons value values ih =>
      rw [List.findIdx?_cons] at first
      split at first
      · next here =>
          cases first
          have held := (holds_iff value).1 here
          simp [replaces, List.replace_append_left held]
      · next further =>
          obtain ⟨behind, isBehind, rfl⟩ := Option.map_eq_some_iff.1 first
          have absent : old ∉ childrenOf value := fun held => further ((holds_iff value).2 held)
          simp [ih isBehind, List.replace_append_right absent]

/-- Fields that are changed without their children being changed. -/
theorem flatMap_modify_same {change : FieldValue → FieldValue} {values : List FieldValue}
    {index : Nat}
    (same : ∀ value, values[index]? = some value →
      childrenOf (change value) = childrenOf value) :
    (values.modify index change).flatMap childrenOf = values.flatMap childrenOf := by
  have sameEach : (values.modify index change).map childrenOf = values.map childrenOf := by
    refine List.ext_getElem? fun place => ?_
    by_cases here : index = place
    · subst here
      cases atIndex : values[index]? with
      | none => simp [atIndex]
      | some value => simp [atIndex, same value atIndex]
    · simp [here]
  rw [List.flatMap_def, sameEach, List.flatMap_def]

end Numbered

/-- The places of a node, without their fields, are its children. -/
theorem map_snd_places (node : Node) : node.places.map Prod.snd = node.children := by
  rw [places, List.map_append, map_snd_numbered, map_snd_numbered]
  rfl

/-- The search through the fields finds the field of the first occurrence. -/
theorem fieldOf?_eq_firstField? (node : Node) (child : NodeId) :
    node.fieldOf? child = node.firstField? child := by
  have inSingle : ∀ value : FieldValue, value.isChild child = true ↔ child ∈ value.single :=
    fun _ => FieldValue.isChild_iff
  have inList : ∀ value : FieldValue, value.listsChild child = true ↔ child ∈ value.listed :=
    fun _ => FieldValue.listsChild_iff
  rw [firstField?, places, List.find?_append, Option.map_or, find?_numbered single inSingle,
    find?_numbered listed inList]
  simp [fieldOf?]

/-- No field is found for what is not a child. -/
theorem firstField?_eq_none_iff {node : Node} {child : NodeId} :
    node.firstField? child = none ↔ child ∉ node.children := by
  rw [firstField?, Option.map_eq_none_iff, List.find?_eq_none, ← map_snd_places]
  simp only [beq_iff_eq, List.mem_map, not_exists, not_and]

theorem fieldOf?_eq_none_iff {node : Node} {child : NodeId} :
    node.fieldOf? child = none ↔ child ∉ node.childIds := by
  simp only [fieldOf?, Option.or_eq_none_iff, List.findIdx?_eq_none_iff, childIds,
    List.mem_flatMap, FieldValue.mem_childIds_iff, not_exists, not_and, not_or,
    Bool.not_eq_true]
  constructor
  · rintro ⟨noSingle, noList⟩ value member
    exact ⟨noSingle value member, noList value member⟩
  · intro none
    exact ⟨fun value member => (none value member).1, fun value member => (none value member).2⟩

/-! ### The node with another child there -/

/-- The second content is the first one with another child in the place of the first occurrence of
a child.  All other places, empty ones among them, are the same. -/
inductive Swapped (old new : NodeId) : FieldContent → FieldContent → Prop where
  | child : Swapped old new (.child (some old)) (.child (some new))
  | childList {front back : List Slot} : some old ∉ front →
      Swapped old new (.childList (front ++ some old :: back))
        (.childList (front ++ some new :: back))

/-- The second node is the first one with another child in the place of the first occurrence of a
child in the field of the given number. -/
structure Exchanged (index : Nat) (old new : NodeId) (node changed : Node) : Prop where
  kind : changed.kind = node.kind
  content : Swapped old new (node.field index) (changed.field index)
  others : ∀ other, other ≠ index → changed.values[other]? = node.values[other]?

/-- Where the child is held, its first occurrence is swapped. -/
theorem swapped_replaceFirst {value : FieldValue} {old : NodeId} (new : NodeId)
    (held : value.isChild old = true ∨ value.listsChild old = true) :
    Swapped old new value.content (value.replaceFirst old new).content := by
  rcases FieldValue.eq_of_held held with rfl | ⟨front, back, first, rfl⟩
  · simpa [FieldValue.content, FieldValue.replaceFirst] using Swapped.child
  · rw [FieldValue.replaceFirst_append new first]
    exact .childList first

section ReplaceIn

variable {node : Node} {index : Nat} {old : NodeId} (new : NodeId)
  (found : node.fieldOf? old = some index)

include found

theorem exchanged_replaceIn : Exchanged index old new node (node.replaceIn index old new) where
  kind := kind_replaceIn new
  content := by
    obtain ⟨value, atIndex, held⟩ := exists_value_of_fieldOf? found
    have swapped := swapped_replaceFirst new held
    simpa [field, values_replaceIn, atIndex] using swapped
  others := by
    intro other differs
    simp [values_replaceIn, differs.symm]

omit found in
/-- Children in single slots come before those in lists. -/
theorem children_eq (node : Node) :
    node.children = node.values.flatMap single ++ node.values.flatMap listed := rfl

/-- The children afterwards are those before, with the first occurrence replaced. -/
theorem children_replaceIn :
    (node.replaceIn index old new).children = node.children.replace old new := by
  simp only [children_eq, values_replaceIn]
  rcases Option.or_eq_some_iff.1 found with single | ⟨noSingle, inList⟩
  · obtain ⟨bound, holds, -⟩ := List.findIdx?_eq_some_iff_getElem.1 single
    have occurs : old ∈ node.values.flatMap FieldValue.single :=
      List.mem_flatMap.2 ⟨_, List.getElem_mem bound, FieldValue.isChild_iff.1 holds⟩
    rw [List.replace_append_left occurs,
      flatMap_modify_first FieldValue.single (fun _ => FieldValue.isChild_iff)
        (fun value => value.single_replaceFirst old new) single,
      flatMap_modify_same]
    intro value atIndex
    cases (List.getElem?_eq_getElem bound).symm.trans atIndex
    rw [FieldValue.listed_replaceFirst, FieldValue.listed_eq_nil holds, List.replace_nil]
  · have absent : old ∉ node.values.flatMap FieldValue.single := by
      intro occurs
      obtain ⟨value, member, held⟩ := List.mem_flatMap.1 occurs
      have passed := List.findIdx?_eq_none_iff.1 noSingle value member
      rw [FieldValue.isChild_iff.2 held] at passed
      cases passed
    obtain ⟨bound, holds, -⟩ := List.findIdx?_eq_some_iff_getElem.1 inList
    rw [List.replace_append_right absent,
      flatMap_modify_first listed (fun _ => FieldValue.listsChild_iff)
        (fun value => value.listed_replaceFirst old new) inList,
      flatMap_modify_same]
    intro value atIndex
    cases (List.getElem?_eq_getElem bound).symm.trans atIndex
    rw [FieldValue.single_replaceFirst, FieldValue.single_eq_nil holds, List.replace_nil]

/-! ### The way back -/

omit found in
/-- The kind and the contents of its fields determine a node. -/
theorem ext_values {node other : Node} (kind : node.kind = other.kind)
    (values : node.values = other.values) : node = other := by
  have same := ofValues?_values node
  rw [kind, values, ofValues?_values] at same
  exact (Option.some.inj same).symm

variable (absent : new ∉ node.childIds)

include absent

omit found in
theorem not_mem_childIds_of_value {value : FieldValue} (member : value ∈ node.values) :
    new ∉ value.childIds :=
  fun held => absent (List.mem_flatMap.2 ⟨value, member, held⟩)

/-- A child that did not occur is found in the field into which it was put. -/
theorem fieldOf?_replaceIn : (node.replaceIn index old new).fieldOf? new = some index := by
  obtain ⟨value, atIndex, held⟩ := exists_value_of_fieldOf? found
  have values : (node.replaceIn index old new).values =
      node.values.modify index (·.replaceFirst old new) := values_replaceIn new
  cases search : (node.replaceIn index old new).fieldOf? new with
  | none =>
      obtain ⟨before, after, -, isChild⟩ := value.exists_childIds_replaceFirst new held
      refine absurd ?_ (fieldOf?_eq_none_iff.1 search)
      refine List.mem_flatMap.2 ⟨value.replaceFirst old new, ?_, by simp [isChild]⟩
      rw [values]
      exact List.mem_iff_getElem?.2 ⟨index, by simp [atIndex]⟩
  | some other =>
      obtain ⟨otherValue, atOther, heldThere⟩ := exists_value_of_fieldOf? search
      by_cases same : other = index
      · rw [same]
      · have unchanged := (exchanged_replaceIn new found).others other same
        rw [atOther] at unchanged
        have member := List.mem_of_getElem? unchanged.symm
        exact absurd (FieldValue.mem_childIds_iff.2 heldThere)
          (not_mem_childIds_of_value new absent member)

/-- Putting the old child back gives the node as it was. -/
theorem replaceIn_replaceIn :
    (node.replaceIn index old new).replaceIn index new old = node := by
  refine ext_values (by simp) ?_
  rw [values_replaceIn, values_replaceIn]
  refine List.ext_getElem? fun place => ?_
  by_cases here : index = place
  · subst here
    obtain ⟨value, atIndex, held⟩ := exists_value_of_fieldOf? found
    have notInside := not_mem_childIds_of_value new absent (List.mem_of_getElem? atIndex)
    simp [atIndex, FieldValue.replaceFirst_replaceFirst held notInside]
  · simp [here]

end ReplaceIn

end Node

end SelectTree
