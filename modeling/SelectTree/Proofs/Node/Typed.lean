/-
Module: SelectTree.Proofs.Node.Typed
Purpose: the contents of a node are of the types that its kind declares, and contents of these
  types are a node.
Main exports: FieldType.holds, Typed, Node.values_typed, Node.kind_withValues,
  Node.values_withValues

Operations that exchange children go through the list of field values and back.  The way back
exists because exchanging children keeps the type of every value.
-/
import Mathlib.Data.List.Forall2
import SelectTree.Node.Access

namespace SelectTree

/-- The contents are of the type. -/
def FieldType.holds : FieldType → FieldValue → Bool
  | .child _, .child _ => true
  | .children _, .children _ => true
  | .flag, .flag _ => true
  | .text, .text _ => true
  | .optionalText, .optionalText _ => true
  | .texts, .texts _ => true
  | .optionalInteger, .optionalInteger _ => true
  | .identifier, .identifier _ => true
  | .optionalIdentifier, .optionalIdentifier _ => true
  | .identifiers, .identifiers _ => true
  | .literal, .literal _ => true
  | .arithmeticOperator, .arithmeticOperator _ => true
  | .comparisonOperator, .comparisonOperator _ => true
  | .logicOperator, .logicOperator _ => true
  | .quantifier, .quantifier _ => true
  | .aggregateFunction, .aggregateFunction _ => true
  | .optionalSetOperator, .optionalSetOperator _ => true
  | .joinType, .joinType _ => true
  | .groupingKind, .groupingKind _ => true
  | .sortDirection, .sortDirection _ => true
  | .optionalFrameUnit, .optionalFrameUnit _ => true
  | _, _ => false

/-- What contents of a type look like. -/
theorem FieldType.holds_iff (type : FieldType) (value : FieldValue) :
    type.holds value = true ↔
      match type with
      | .child _ => ∃ held, value = .child held
      | .children _ => ∃ held, value = .children held
      | .flag => ∃ held, value = .flag held
      | .text => ∃ held, value = .text held
      | .optionalText => ∃ held, value = .optionalText held
      | .texts => ∃ held, value = .texts held
      | .optionalInteger => ∃ held, value = .optionalInteger held
      | .identifier => ∃ held, value = .identifier held
      | .optionalIdentifier => ∃ held, value = .optionalIdentifier held
      | .identifiers => ∃ held, value = .identifiers held
      | .literal => ∃ held, value = .literal held
      | .arithmeticOperator => ∃ held, value = .arithmeticOperator held
      | .comparisonOperator => ∃ held, value = .comparisonOperator held
      | .logicOperator => ∃ held, value = .logicOperator held
      | .quantifier => ∃ held, value = .quantifier held
      | .aggregateFunction => ∃ held, value = .aggregateFunction held
      | .optionalSetOperator => ∃ held, value = .optionalSetOperator held
      | .joinType => ∃ held, value = .joinType held
      | .groupingKind => ∃ held, value = .groupingKind held
      | .sortDirection => ∃ held, value = .sortDirection held
      | .optionalFrameUnit => ∃ held, value = .optionalFrameUnit held := by
  constructor
  · intro holds
    cases type <;> cases value <;> first | exact ⟨_, rfl⟩ | cases holds
  · intro shape
    cases type <;> obtain ⟨held, rfl⟩ := shape <;> rfl

/-- The contents of fields are of the types that the fields declare. -/
def Typed (fields : List FieldDescriptor) (values : List FieldValue) : Prop :=
  List.Forall₂ (fun field value => field.type.holds value = true) fields values

namespace Node

/-- The contents of a node fit its fields, one by one. -/
theorem values_typed (node : Node) : Typed node.fields node.values := by
  cases node with
  | root child => simp [Typed, fields, kind, Kind.fields, values, FieldType.holds]
  | column column =>
      cases column <;> simp [Typed, fields, kind, Kind.fields, values, FieldType.holds]
  | condition condition =>
      cases condition <;> simp [Typed, fields, kind, Kind.fields, values, FieldType.holds]
  | relation relation =>
      cases relation <;> simp [Typed, fields, kind, Kind.fields, values, FieldType.holds]
  | statement ctes selects orderBy options =>
      simp [Typed, fields, kind, Kind.fields, values, FieldType.holds]
  | select setOperator top distinct columns sources pivot filter groupBy having =>
      simp [Typed, fields, kind, Kind.fields, values, FieldType.holds]
  | element element =>
      cases element <;> simp [Typed, fields, kind, Kind.fields, values, FieldType.holds]

/-- Contents of the declared types are a node of the kind. -/
theorem ofValues?_of_typed {kind : Kind} {values : List FieldValue} :
    Typed kind.fields values →
      ∃ node : Node, ofValues? kind values = some node ∧ node.kind = kind ∧
        node.values = values := by
  cases kind <;>
    simp only [Typed, Kind.fields, List.forall₂_cons_left_iff, List.forall₂_nil_left_iff,
      FieldType.holds_iff, forall_exists_index, and_imp] <;>
    (intros; subst_vars; exact ⟨_, rfl, rfl, rfl⟩)

section WithValues

variable {node : Node} {values : List FieldValue} (typed : Typed node.fields values)

include typed

theorem kind_withValues : (node.withValues values).kind = node.kind := by
  obtain ⟨found, isNode, sameKind, _⟩ := ofValues?_of_typed typed
  simp [withValues, isNode, sameKind]

/-- Contents that fit a node are the contents of the node that is made with them. -/
theorem values_withValues : (node.withValues values).values = values := by
  obtain ⟨found, isNode, _, sameValues⟩ := ofValues?_of_typed typed
  simp [withValues, isNode, sameValues]

end WithValues

end Node

end SelectTree
