/-
Module: SelectTree.Proofs.Node.Handle
Purpose: what is declared of the fields of a node, what is read from them by number and what is
  written to them by number are in step, in every kind.
Main exports: FieldView, Node.declaredView, Node.Overwritten, Node.handle_eq, Node.fields_in_step,
  Node.setField_eq_put?, Node.replaceIn_eq_setField, Node.copyFields_of_rename

Each kind has its descriptors in one place, its contents in a second and its handles in a third.
Descriptors and contents agree because contents are of the declared types.  Handles are compared
with the contents kind by kind, in `handle_eq` and nowhere else: a handle puts into the node what
writing into the list of its contents gives.
-/
import SelectTree.Node.Handle
import SelectTree.Proofs.Node.Exchange
import SelectTree.Proofs.Node.Rename

namespace SelectTree

/-! ### How a field is seen -/

/-- What the number of a field gives access to. -/
inductive FieldView where
  | child
  | childList
  /-- Nothing: a value, or no field at all. -/
  | value
deriving Repr, Inhabited, DecidableEq

/-- Plain values and values with a structure of their own are not seen. -/
def FieldShape.view : FieldShape → FieldView
  | .child => .child
  | .childList => .childList
  | .scalar | .scalarList | .opaqueValue | .opaqueList => .value

/-- How a content is seen, whatever children are in it. -/
def FieldContent.view : FieldContent → FieldView
  | .child _ => .child
  | .childList _ => .childList
  | .value => .value

/-- What the descriptor of the given number says; past the last one there is nothing. -/
def Node.declaredView (node : Node) (index : Nat) : FieldView :=
  match node.fields[index]? with
  | some field => field.type.shape.view
  | none => .value

namespace FieldType

variable {type : FieldType}

theorem view_of_holds {value : FieldValue} (holds : type.holds value = true) :
    value.content.view = type.shape.view := by
  have shape := (type.holds_iff value).1 holds
  cases type <;> obtain ⟨held, rfl⟩ := shape <;> rfl

/-- A class is demanded of children, and of nothing else. -/
theorem isSome_accepts?_iff : type.accepts?.isSome = true ↔ type.shape.view ≠ .value := by
  cases type <;> simp [accepts?, shape, FieldShape.view]

end FieldType

namespace Typed

variable {fields : List FieldDescriptor} {values : List FieldValue} {index : Nat}

/-- Under the number of a field there are contents of its type. -/
theorem exists_value (typed : Typed fields values) {field : FieldDescriptor}
    (isField : fields[index]? = some field) :
    ∃ value, values[index]? = some value ∧ field.type.holds value = true := by
  induction typed generalizing index with
  | nil => simp at isField
  | @cons _ value _ _ holds _ ih =>
      cases index with
      | zero =>
          cases isField
          exact ⟨value, rfl, holds⟩
      | succ index => exact ih isField

theorem getElem?_eq_none (typed : Typed fields values) (noField : fields[index]? = none) :
    values[index]? = none := by
  rw [List.getElem?_eq_none_iff] at noField ⊢
  rwa [← typed.length_eq]

end Typed

namespace FieldValue

theorem holds_write (type : FieldType) (value : FieldValue) (content : FieldContent) :
    type.holds (value.write content) = type.holds value := by
  cases value with
  | child held => cases content <;> cases type <;> rfl
  | children held => cases content <;> cases type <;> rfl
  | _ => rfl

variable {value : FieldValue} {content : FieldContent}

theorem content_write (sameView : content.view = value.content.view) :
    (value.write content).content = content := by
  cases content with
  | child slot =>
      cases value with
      | child held => rfl
      | _ => cases sameView
  | childList slots =>
      cases value with
      | children held => rfl
      | _ => cases sameView
  | value =>
      cases value with
      | child held => cases sameView
      | children held => cases sameView
      | _ => rfl

/-- Values that are not seen are not written over. -/
theorem write_of_unseen (unseen : value.content.view = .value) : value.write content = value := by
  cases value with
  | child held => cases unseen
  | children held => cases unseen
  | _ => rfl

/-- Contents of one type become each other by writing, if what is not seen is equal. -/
theorem write_content {type : FieldType} {source : FieldValue} (holds : type.holds value = true)
    (holdsSource : type.holds source = true)
    (unseen : type.shape.view = .value → source = value) :
    value.write source.content = source := by
  by_cases plain : type.shape.view = .value
  · rw [unseen plain]
    exact write_of_unseen ((FieldType.view_of_holds holds).trans plain)
  · have shape := (type.holds_iff value).1 holds
    have shapeSource := (type.holds_iff source).1 holdsSource
    cases type with
    | child accepts =>
        obtain ⟨held, rfl⟩ := shape
        obtain ⟨other, rfl⟩ := shapeSource
        rfl
    | children accepts =>
        obtain ⟨held, rfl⟩ := shape
        obtain ⟨others, rfl⟩ := shapeSource
        rfl
    | _ => exact absurd rfl plain

end FieldValue

namespace Node

theorem view_field (node : Node) (index : Nat) :
    (node.field index).view = node.declaredView index := by
  cases isField : node.fields[index]? with
  | none =>
      have noValue := node.values_typed.getElem?_eq_none isField
      simp [field, declaredView, isField, noValue, FieldContent.view]
  | some descriptor =>
      obtain ⟨value, isValue, holds⟩ := node.values_typed.exists_value isField
      simpa [field, declaredView, isField, isValue] using FieldType.view_of_holds holds

/-! ### Writing by number -/

section SetField

variable (node : Node) (index : Nat) (content : FieldContent)

theorem typed_setField : Typed node.fields (node.values.modify index (·.write content)) :=
  node.values_typed.modify _
    (fun type value holds => by rwa [FieldValue.holds_write]) index

@[simp] theorem kind_setField : (node.setField index content).kind = node.kind :=
  kind_withValues (node.typed_setField index content)

@[simp] theorem values_setField :
    (node.setField index content).values = node.values.modify index (·.write content) :=
  values_withValues (node.typed_setField index content)

end SetField

/-- The second node is the first one with this content in the field of the given number.  All other
fields are the same, those among them that are not seen by number. -/
structure Overwritten (index : Nat) (content : FieldContent) (node written : Node) : Prop where
  content : written.field index = content
  others : ∀ other, other ≠ index → written.field other = node.field other
  unseen : ∀ other, node.declaredView other = .value →
    written.values[other]? = node.values[other]?
  kind : written.kind = node.kind
  nodeClass : written.nodeClass = node.nodeClass
  fields : written.fields = node.fields

theorem overwritten_setField {node : Node} {index : Nat} {value : FieldValue}
    {content : FieldContent} (atIndex : node.values[index]? = some value)
    (sameView : content.view = value.content.view) :
    Overwritten index content node (node.setField index content) where
  content := by simp [field, atIndex, FieldValue.content_write sameView]
  others := by
    intro other differs
    simp [field, differs.symm]
  unseen := by
    intro other unseen
    by_cases same : index = other
    · subst same
      have plain : value.content.view = .value := by
        simpa [← view_field, field, atIndex] using unseen
      simp [atIndex, FieldValue.write_of_unseen plain]
    · simp [same]
  kind := kind_setField node index content
  nodeClass := by simp [nodeClass]
  fields := by simp [fields]

/-! ### Handles -/

/-- The handle that is had by going through the contents in the order of their declaration. -/
def listedHandle (node : Node) (index : Nat) : FieldHandle Node :=
  match node.values[index]? with
  | some (.child held) => .child held fun slot => node.setField index (.child slot)
  | some (.children held) => .childList held fun slots => node.setField index (.childList slots)
  | _ => .value

/-- No kind has a handle under a wrong number, or one that writes to another field. -/
theorem handle_eq (node : Node) (index : Nat) : node.handle index = node.listedHandle index := by
  -- No column or condition has more than four fields, no element more than five.
  cases node with
  | root child => rcases index with _ | index <;> rfl
  | column column => cases column <;> rcases index with _ | _ | _ | _ | index <;> rfl
  | condition condition => cases condition <;> rcases index with _ | _ | _ | _ | index <;> rfl
  | relation relation => cases relation <;> rcases index with _ | _ | index <;> rfl
  | statement ctes selects orderBy options => rcases index with _ | _ | _ | _ | index <;> rfl
  | select setOperator top distinct columns sources pivot filter groupBy having =>
      rcases index with _ | _ | _ | _ | _ | _ | _ | _ | _ | index <;> rfl
  | element element => cases element <;> rcases index with _ | _ | _ | _ | _ | index <;> rfl

example :
    ((Node.column (.convert "INT" (some ⟨1⟩) none false)).handle 2).put? (.child (some ⟨2⟩)) =
      some (.column (.convert "INT" (some ⟨1⟩) (some ⟨2⟩) false)) := rfl

theorem content_handle (node : Node) (index : Nat) :
    (node.handle index).content = node.field index := by
  rw [handle_eq, listedHandle, field]
  cases node.values[index]? with
  | none => rfl
  | some value => cases value <;> rfl

end Node

/-- Whatever is put into the field of the given number of the node, that is what it holds then, and
nothing else changes. -/
def FieldHandle.Overwrites (node : Node) (index : Nat) : FieldHandle Node → Prop
  | .child _ put => ∀ slot, node.Overwritten index (.child slot) (put slot)
  | .childList _ put => ∀ slots, node.Overwritten index (.childList slots) (put slots)
  -- There is nothing to put.
  | .value => True

namespace Node

theorem overwrites_handle (node : Node) (index : Nat) :
    (node.handle index).Overwrites node index := by
  rw [handle_eq, listedHandle]
  split
  · next held atIndex => exact fun slot => overwritten_setField atIndex rfl
  · next held atIndex => exact fun slots => overwritten_setField atIndex rfl
  · trivial

/-- In every kind, under every number: a field is seen as its descriptor says, it demands a class
exactly if it is for children, its handle is on what is seen of it, and what is put there is read
back and changes nothing else. -/
theorem fields_in_step (node : Node) (index : Nat) :
    (node.field index).view = node.declaredView index ∧
      ((node.fields[index]?.bind (·.type.accepts?)).isSome = true ↔
        node.declaredView index ≠ .value) ∧
      (node.handle index).content = node.field index ∧
      (node.handle index).Overwrites node index := by
  refine ⟨node.view_field index, ?_, node.content_handle index, node.overwrites_handle index⟩
  cases atIndex : node.fields[index]? with
  | none => simp [declaredView, atIndex]
  | some descriptor => simpa [declaredView, atIndex] using FieldType.isSome_accepts?_iff

/-! ### What the tree operations write -/

/-- Changes that agree on what is under the number are the same change. -/
theorem modify_congr {values : List FieldValue} {index : Nat}
    {change other : FieldValue → FieldValue}
    (agree : ∀ value, values[index]? = some value → change value = other value) :
    values.modify index change = values.modify index other := by
  refine List.ext_getElem? fun place => ?_
  by_cases here : index = place
  · subst here
    cases atIndex : values[index]? with
    | none => simp [atIndex]
    | some value => simp [atIndex, agree value atIndex]
  · simp [here]

theorem setField_eq_self {node : Node} {index : Nat} {content : FieldContent}
    (unwritten : ∀ value, node.values[index]? = some value → value.write content = value) :
    node.setField index content = node := by
  have same : node.values.modify index (·.write content) = node.values :=
    (modify_congr unwritten).trans (List.modify_id index node.values)
  simp [setField, same, withValues]

/-- Writing by number goes through the handle; what the field cannot hold is not written. -/
theorem setField_eq_put? (node : Node) (index : Nat) (content : FieldContent) :
    node.setField index content = ((node.handle index).put? content).getD node := by
  rw [handle_eq, listedHandle]
  cases atIndex : node.values[index]? with
  | none => exact setField_eq_self (by simp [atIndex])
  | some value =>
      cases value with
      | child held =>
          cases content with
          | child slot => rfl
          | _ => exact setField_eq_self (by simp [atIndex, FieldValue.write])
      | children held =>
          cases content with
          | childList slots => rfl
          | _ => exact setField_eq_self (by simp [atIndex, FieldValue.write])
      | _ => exact setField_eq_self (by simp [atIndex, FieldValue.write])

end Node

/-- The content with the first occurrence of a child replaced. -/
def FieldContent.replaceFirst (old new : NodeId) : FieldContent → FieldContent
  | .child slot => .child (if slot = some old then some new else slot)
  | .childList slots => .childList (slots.replace (some old) (some new))
  | .value => .value

theorem FieldValue.replaceFirst_eq_write (value : FieldValue) (old new : NodeId) :
    value.replaceFirst old new = value.write (value.content.replaceFirst old new) := by
  cases value <;> rfl

namespace Node

/-- Replacing a child in a field is writing to this field. -/
theorem replaceIn_eq_setField (node : Node) (index : Nat) (old new : NodeId) :
    node.replaceIn index old new =
      node.setField index ((node.field index).replaceFirst old new) := by
  rw [replaceIn, setField]
  refine congrArg node.withValues (modify_congr fun value atIndex => ?_)
  simpa [field, atIndex] using value.replaceFirst_eq_write old new

/-- The node with what is seen of another one written to its own fields, one field after the other.
So a copy of a node is filled in. -/
def copyFields (node source : Node) : Node :=
  (List.range node.fields.length).foldl
    (fun written index => written.setField index (source.field index)) node

section CopyFields

variable {node source : Node} (kind : source.kind = node.kind)
  (unseen : ∀ index, node.declaredView index = .value →
    source.values[index]? = node.values[index]?)

include kind unseen

/-- Under one number, what is seen of the source makes its contents of those of the node. -/
theorem map_write_field (index : Nat) :
    node.values[index]?.map (·.write (source.field index)) = source.values[index]? := by
  have typedSource : Typed node.fields source.values := by
    have typed := source.values_typed
    rwa [fields, kind] at typed
  cases isField : node.fields[index]? with
  | none =>
      have past : node.declaredView index = .value := by simp [declaredView, isField]
      rw [unseen index past, node.values_typed.getElem?_eq_none isField]
      rfl
  | some descriptor =>
      obtain ⟨value, isValue, holds⟩ := node.values_typed.exists_value isField
      obtain ⟨sourceValue, isSourceValue, holdsSource⟩ := typedSource.exists_value isField
      have plain : descriptor.type.shape.view = .value → sourceValue = value := by
        intro notSeen
        have same := unseen index (by simpa [declaredView, isField] using notSeen)
        rw [isSourceValue, isValue] at same
        exact Option.some.inj same
      simp [field, isValue, isSourceValue, FieldValue.write_content holds holdsSource plain]

/-- After so many steps, so many fields are as in the source, and the others as they were. -/
theorem values_foldl_setField (count : Nat) :
    let written := (List.range count).foldl
      (fun written index => written.setField index (source.field index)) node
    written.kind = node.kind ∧ ∀ index, written.values[index]? =
      if index < count then source.values[index]? else node.values[index]? := by
  induction count with
  | zero => simp
  | succ count ih =>
      obtain ⟨sameKind, values⟩ := ih
      rw [List.range_succ, List.foldl_append, List.foldl_cons, List.foldl_nil]
      refine ⟨(kind_setField ..).trans sameKind, fun index => ?_⟩
      rw [values_setField]
      by_cases here : count = index
      · subst here
        simp [values, map_write_field kind unseen]
      · have before : index < count + 1 ↔ index < count := by omega
        simp [here, values, before]

/-- Nodes of one kind, equal in what is not seen, become each other by writing. -/
theorem copyFields_eq : node.copyFields source = source := by
  obtain ⟨sameKind, values⟩ := values_foldl_setField kind unseen node.fields.length
  refine ext_values (sameKind.trans kind.symm) (List.ext_getElem? fun index => ?_)
  rw [copyFields, values]
  split
  · rfl
  · next outside =>
      have past : node.declaredView index = .value := by
        simp [declaredView, List.getElem?_eq_none (Nat.le_of_not_lt outside)]
      exact (unseen index past).symm

end CopyFields

/-- The same node with other numbers for its children comes of writing these to its fields. -/
theorem copyFields_of_rename {node twin : Node} {convert : NodeId → NodeId}
    (kind : twin.kind = node.kind)
    (values : twin.values = node.values.map (FieldValue.rename convert)) :
    node.copyFields twin = twin := by
  refine copyFields_eq kind fun index unseen => ?_
  rw [values, List.getElem?_map]
  cases atIndex : node.values[index]? with
  | none => rfl
  | some value =>
      rw [← view_field, field, atIndex] at unseen
      cases value with
      | child held => cases unseen
      | children held => cases unseen
      | _ => rfl

end Node

end SelectTree
