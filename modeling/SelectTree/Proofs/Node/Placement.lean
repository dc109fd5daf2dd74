/-
Module: SelectTree.Proofs.Node.Placement
Purpose: the children of a node together with the fields that hold them, and what replacing a
  child does to them.
Main exports: FieldDescriptor.Fits, Node.map_snd_placements, Node.placements_replaceIn
-/
import Mathlib.Data.List.Zip
import SelectTree.Proofs.Node.Typed
import SelectTree.Tree.Validate

namespace SelectTree

/-- The field is for children, and for children of this class.  No field is for a root. -/
def FieldDescriptor.Fits (field : FieldDescriptor) (found : NodeClass) : Prop :=
  ∃ demanded, field.type.accepts? = some demanded ∧ demanded.accepts found = true

namespace FieldDescriptor.Fits

/-- No field admits a root. -/
theorem ne_root {field : FieldDescriptor} {found : NodeClass} (fits : field.Fits found) :
    found ≠ .root := by
  obtain ⟨demanded, _, accepted⟩ := fits
  rintro rfl
  simp [NodeClass.accepts] at accepted

/-- A field for children admits exactly the classes that fit. -/
theorem checkClass_iff {field : FieldDescriptor} {demanded found : NodeClass}
    (holdsChildren : field.type.accepts? = some demanded) :
    field.checkClass found = .ok () ↔ field.Fits found := by
  simp only [FieldDescriptor.checkClass, FieldDescriptor.Fits, holdsChildren, Option.some.injEq,
    exists_eq_left']
  split <;> simp_all

end FieldDescriptor.Fits

/-- A field that holds children says of which class. -/
theorem FieldType.exists_accepts?_of_childIds {type : FieldType} {value : FieldValue}
    {child : NodeId} (holds : type.holds value = true) (held : child ∈ value.childIds) :
    ∃ demanded, type.accepts? = some demanded := by
  cases value with
  | child slot => cases type <;> first | exact ⟨_, rfl⟩ | cases holds
  | children slots => cases type <;> first | exact ⟨_, rfl⟩ | cases holds
  | _ => simp [FieldValue.childIds] at held

namespace Node

/-- Every field that holds a child is a field for children. -/
theorem exists_accepts?_of_placement {node : Node} {field : FieldDescriptor} {child : NodeId}
    (placed : (field, child) ∈ node.placements) :
    ∃ demanded, field.type.accepts? = some demanded := by
  simp only [placements, List.mem_flatMap, List.mem_map, Prod.mk.injEq] at placed
  obtain ⟨⟨field', value⟩, paired, child', held, rfl, rfl⟩ := placed
  have holds := List.forall₂_iff_zip.1 node.values_typed |>.2 paired
  exact FieldType.exists_accepts?_of_childIds holds held

/-- The placements of a node list its children. -/
theorem map_snd_placements (node : Node) : node.placements.map Prod.snd = node.childIds := by
  have zipped : (node.fields.zip node.values).map Prod.snd = node.values :=
    List.map_snd_zip (le_of_eq node.values_typed.length_eq.symm)
  have flattened : node.placements.map Prod.snd =
      ((node.fields.zip node.values).map Prod.snd).flatMap FieldValue.childIds := by
    simp [placements, List.map_flatMap, List.flatMap_map, Function.comp_def]
  rw [flattened, zipped, childIds]

/-- Every child of a node is in one of its fields. -/
theorem exists_placement {node : Node} {child : NodeId} (held : child ∈ node.childIds) :
    ∃ field, (field, child) ∈ node.placements := by
  rw [← map_snd_placements] at held
  obtain ⟨⟨field, child'⟩, placed, rfl⟩ := List.mem_map.1 held
  exact ⟨field, placed⟩

theorem mem_childIds_of_placement {node : Node} {field : FieldDescriptor} {child : NodeId}
    (placed : (field, child) ∈ node.placements) : child ∈ node.childIds := by
  rw [← map_snd_placements]
  exact List.mem_map.2 ⟨_, placed, rfl⟩

end Node

/-! ### Replacing a child -/

namespace FieldValue

/-- Contents fit a field as before, whichever child they hold. -/
theorem holds_replaceFirst (type : FieldType) (value : FieldValue) (old new : NodeId) :
    type.holds (value.replaceFirst old new) = type.holds value := by
  cases value <;> cases type <;> rfl

/-- Of the listed children the first such one is exchanged, in its place. -/
theorem exists_filterMap_replace {slots : List Slot} {old : NodeId} (new : NodeId)
    (listed : some old ∈ slots) :
    ∃ before after, slots.filterMap id = before ++ old :: after ∧
      (slots.replace (some old) (some new)).filterMap id = before ++ new :: after := by
  induction slots with
  | nil => simp at listed
  | cons slot slots ih =>
      by_cases here : slot = some old
      · subst here
        exact ⟨[], slots.filterMap id, by simp, by simp⟩
      · have behind : some old ∈ slots := by
          rcases List.mem_cons.1 listed with same | behind
          · exact absurd same.symm here
          · exact behind
        have kept : (slot :: slots).replace (some old) (some new) =
            slot :: slots.replace (some old) (some new) := by
          rw [List.replace_cons]
          have differ : (some old == slot) = false := by
            simpa using fun same => here same.symm
          rw [differ]
        obtain ⟨before, after, original, replaced⟩ := ih behind
        refine ⟨slot.toList ++ before, after, ?_, ?_⟩
        · cases slot <;> simp [← original]
        · rw [kept]
          cases slot <;> simp [← replaced]

/-- Replacing a child in a field changes this one child and nothing else. -/
theorem exists_childIds_replaceFirst {value : FieldValue} {old : NodeId} (new : NodeId)
    (held : value.isChild old = true ∨ value.listsChild old = true) :
    ∃ before after, value.childIds = before ++ old :: after ∧
      (value.replaceFirst old new).childIds = before ++ new :: after := by
  cases value with
  | child slot =>
      have here : slot = some old := by simpa [isChild, listsChild] using held
      exact ⟨[], [], by simp [childIds, here], by simp [childIds, replaceFirst, here]⟩
  | children slots =>
      have listed : some old ∈ slots := by simpa [isChild, listsChild] using held
      exact exists_filterMap_replace new listed
  | _ => simp [isChild, listsChild] at held

end FieldValue

/-- A change that keeps the kind of one value keeps all values fitting. -/
theorem Typed.modify {fields : List FieldDescriptor} {values : List FieldValue}
    (typed : Typed fields values) (change : FieldValue → FieldValue)
    (keeps : ∀ (type : FieldType) value, type.holds value = true → type.holds (change value) = true)
    (index : Nat) : Typed fields (values.modify index change) := by
  induction typed generalizing index with
  | nil =>
      rw [List.modify_nil]
      exact .nil
  | cons holds _ ih =>
      cases index with
      | zero => exact .cons (keeps _ _ holds) ‹_›
      | succ index => exact .cons holds (ih index)

namespace Node

section ReplaceIn

variable {node : Node} {index : Nat} {old : NodeId} (new : NodeId)

/-- An exchanged child leaves contents that the node may have. -/
theorem typed_replaceIn :
    Typed node.fields (node.values.modify index (·.replaceFirst old new)) :=
  node.values_typed.modify _
    (fun type value holds => by rwa [FieldValue.holds_replaceFirst]) index

@[simp] theorem kind_replaceIn : (node.replaceIn index old new).kind = node.kind :=
  kind_withValues (typed_replaceIn new)

theorem values_replaceIn :
    (node.replaceIn index old new).values =
      node.values.modify index (·.replaceFirst old new) :=
  values_withValues (typed_replaceIn new)

/-- The field that is found holds the child, alone or in a list. -/
theorem exists_value_of_fieldOf? (found : node.fieldOf? old = some index) :
    ∃ value, node.values[index]? = some value ∧
      (value.isChild old = true ∨ value.listsChild old = true) := by
  rcases Option.or_eq_some_iff.1 found with single | ⟨_, listed⟩
  · obtain ⟨bound, holds, _⟩ := List.findIdx?_eq_some_iff_getElem.1 single
    exact ⟨_, List.getElem?_eq_getElem bound, .inl holds⟩
  · obtain ⟨bound, holds, _⟩ := List.findIdx?_eq_some_iff_getElem.1 listed
    exact ⟨_, List.getElem?_eq_getElem bound, .inr holds⟩

/-- Fields and their contents as placements. -/
def pair (fields : List FieldDescriptor) (values : List FieldValue) :
    List (FieldDescriptor × NodeId) :=
  (fields.zip values).flatMap fun (field, value) =>
    value.childIds.map fun child => (field, child)

theorem pair_append_cons {fieldsBefore fieldsBehind : List FieldDescriptor}
    {valuesBefore valuesBehind : List FieldValue} {field : FieldDescriptor} {value : FieldValue}
    (sameLength : fieldsBefore.length = valuesBefore.length) :
    pair (fieldsBefore ++ field :: fieldsBehind) (valuesBefore ++ value :: valuesBehind) =
      pair fieldsBefore valuesBefore ++
        ((value.childIds.map fun child => (field, child)) ++
          pair fieldsBehind valuesBehind) := by
  simp [pair, List.zip_append sameLength]

/-- Replacing the first occurrence of a child puts the new child in the field of the old one;
all other placements stay. -/
theorem placements_replaceIn (found : node.fieldOf? old = some index) :
    ∃ field before after, node.fields[index]? = some field ∧
      node.placements = before ++ (field, old) :: after ∧
      (node.replaceIn index old new).placements = before ++ (field, new) :: after := by
  obtain ⟨value, atIndex, occurs⟩ := exists_value_of_fieldOf? found
  obtain ⟨first, last, held, replaced⟩ := value.exists_childIds_replaceFirst new occurs
  obtain ⟨bound, isValue⟩ := List.getElem?_eq_some_iff.1 atIndex
  obtain ⟨fieldsBefore, field, fieldsBehind, splitFields, position⟩ :
      ∃ fieldsBefore field fieldsBehind,
        node.fields = fieldsBefore ++ field :: fieldsBehind ∧ fieldsBefore.length = index := by
    have fieldBound : index < node.fields.length := by
      rw [node.values_typed.length_eq]
      exact bound
    exact ⟨node.fields.take index, node.fields[index], node.fields.drop (index + 1), by simp,
      by simp [Nat.le_of_lt fieldBound]⟩
  have splitValues : node.values =
      node.values.take index ++ value :: node.values.drop (index + 1) := by
    simp [← isValue]
  have replacedFields : (node.replaceIn index old new).fields = node.fields := by
    simp [fields]
  have replacedValues : (node.replaceIn index old new).values =
      node.values.take index ++ value.replaceFirst old new :: node.values.drop (index + 1) := by
    rw [values_replaceIn, List.modify_eq_take_cons_drop bound, isValue]
  have sameLength : fieldsBefore.length = (node.values.take index).length := by
    simp [position, Nat.le_of_lt bound]
  let front := pair fieldsBefore (node.values.take index)
  let back := pair fieldsBehind (node.values.drop (index + 1))
  refine ⟨field, front ++ first.map fun child => (field, child),
    (last.map fun child => (field, child)) ++ back, by simp [splitFields, ← position], ?_, ?_⟩
  · have original : node.placements =
        pair (fieldsBefore ++ field :: fieldsBehind)
          (node.values.take index ++ value :: node.values.drop (index + 1)) := by
      rw [← splitFields, ← splitValues]
      rfl
    simp [original, pair_append_cons sameLength, held, front, back]
  · have changed : (node.replaceIn index old new).placements =
        pair (fieldsBefore ++ field :: fieldsBehind)
          (node.values.take index ++
            value.replaceFirst old new :: node.values.drop (index + 1)) := by
      rw [← splitFields, ← replacedFields, ← replacedValues]
      rfl
    simp [changed, pair_append_cons sameLength, replaced, front, back]

end ReplaceIn

end Node

end SelectTree
