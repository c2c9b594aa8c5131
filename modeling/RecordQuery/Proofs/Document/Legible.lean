import RecordQuery.Document.Write
import RecordQuery.Proofs.Json.Lexemes
import RecordQuery.Proofs.Json.Numbers

/-! Documents that JSON can carry. How the ids of properties must look is left open: they are joined by
dots there, so it matters whether they have to be told apart again. -/
namespace RecordQuery

variable {ids : PropertyId → Prop}

structure PropertyRef.Legible (ids : PropertyId → Prop) (ref : PropertyRef) : Prop where
  id : ids ref.id
  name : ref.name.isUtf8 = true

structure SelectedProperty.Legible (ids : PropertyId → Prop) (property : SelectedProperty) : Prop where
  ref : property.ref.Legible ids
  label : property.label.isUtf8 = true
  function : property.function.isUtf8 = true

structure DocumentOrdering.Legible (ids : PropertyId → Prop) (ordering : DocumentOrdering) : Prop where
  ref : ordering.ref.Legible ids
  direction : ordering.direction.isUtf8 = true

/-- Numbers of 64 bits with sign. -/
def IsInt64 (n : Int) : Prop := -0x8000000000000000 ≤ n ∧ n < 0x8000000000000000

/-- Text, truth values and numbers of 64 bits. -/
def Value.Legible : Value → Prop
  | .text t => t.isUtf8 = true
  | .bool _ => True
  | .int n => IsInt64 n
  | .unsigned _ | .float _ | .decimal _ | .null => False

/-- The operator is written with nested restrictions. -/
def nests (operator : Text) : Bool :=
  match Operator.ofName? operator with
  | some (.connect _) | some .not => true
  | _ => false

mutual

/-- All texts are valid UTF-8, all ids are as they should be, and objects are arguments only where the
operator says what they are. -/
def DocumentNode.Legible (ids : PropertyId → Prop) : DocumentNode → Prop
  | ⟨operator, ref, args⟩ =>
    operator.isUtf8 = true ∧ ref.Legible ids ∧ Argument.AllLegible ids operator args

def Argument.Legible (ids : PropertyId → Prop) (operator : Text) : Argument → Prop
  | .value value => value.Legible
  | .restriction node => nests operator = true ∧ node.Legible ids
  | .subquery document => Operator.ofName? operator = some .isIn ∧ document.Legible ids

def Argument.AllLegible (ids : PropertyId → Prop) (operator : Text) : List Argument → Prop
  | [] => True
  | arg :: args => arg.Legible ids operator ∧ Argument.AllLegible ids operator args

def DocumentNode.AllLegible (ids : PropertyId → Prop) : List DocumentNode → Prop
  | [] => True
  | node :: nodes => node.Legible ids ∧ DocumentNode.AllLegible ids nodes

def Document.Legible (ids : PropertyId → Prop) : Document → Prop
  | ⟨typeId, typeName, properties, groupings, restrictions, orderings, limit, offset⟩ =>
    typeId.isUtf8 = true ∧ typeName.isUtf8 = true ∧ (∀ property ∈ properties, property.Legible ids) ∧
      (∀ ref ∈ groupings, ref.Legible ids) ∧ DocumentNode.AllLegible ids restrictions ∧
      (∀ ordering ∈ orderings, ordering.Legible ids) ∧ (∀ n ∈ limit, IsInt64 n) ∧ ∀ n ∈ offset, IsInt64 n

end

section Decide

variable [DecidablePred ids]

instance (ref : PropertyRef) : Decidable (ref.Legible ids) :=
  decidable_of_iff (ids ref.id ∧ ref.name.isUtf8 = true)
    ⟨fun ⟨id, name⟩ => ⟨id, name⟩, fun ⟨id, name⟩ => ⟨id, name⟩⟩

instance (property : SelectedProperty) : Decidable (property.Legible ids) :=
  decidable_of_iff (property.ref.Legible ids ∧ property.label.isUtf8 = true ∧ property.function.isUtf8 = true)
    ⟨fun ⟨ref, label, function⟩ => ⟨ref, label, function⟩,
      fun ⟨ref, label, function⟩ => ⟨ref, label, function⟩⟩

instance (ordering : DocumentOrdering) : Decidable (ordering.Legible ids) :=
  decidable_of_iff (ordering.ref.Legible ids ∧ ordering.direction.isUtf8 = true)
    ⟨fun ⟨ref, direction⟩ => ⟨ref, direction⟩, fun ⟨ref, direction⟩ => ⟨ref, direction⟩⟩

instance (n : Int) : Decidable (IsInt64 n) := inferInstanceAs (Decidable (_ ∧ _))

instance : (value : Value) → Decidable value.Legible
  | .text t => inferInstanceAs (Decidable (t.isUtf8 = true))
  | .bool _ => .isTrue trivial
  | .int n => inferInstanceAs (Decidable (IsInt64 n))
  | .unsigned _ | .float _ | .decimal _ | .null => .isFalse id

mutual

def DocumentNode.decideLegible : (node : DocumentNode) → Decidable (node.Legible ids)
  | ⟨operator, _, args⟩ =>
    have := Argument.decideAllLegible operator args
    inferInstanceAs (Decidable (_ ∧ _ ∧ _))

def Argument.decideLegible (operator : Text) : (arg : Argument) → Decidable (arg.Legible ids operator)
  | .value value => inferInstanceAs (Decidable value.Legible)
  | .restriction node =>
    have := node.decideLegible
    inferInstanceAs (Decidable (_ ∧ _))
  | .subquery document =>
    have := document.decideLegible
    inferInstanceAs (Decidable (_ ∧ _))

def Argument.decideAllLegible (operator : Text) :
    (args : List Argument) → Decidable (Argument.AllLegible ids operator args)
  | [] => .isTrue trivial
  | arg :: args =>
    have := arg.decideLegible operator
    have := Argument.decideAllLegible operator args
    inferInstanceAs (Decidable (_ ∧ _))

def DocumentNode.decideAllLegible :
    (nodes : List DocumentNode) → Decidable (DocumentNode.AllLegible ids nodes)
  | [] => .isTrue trivial
  | node :: nodes =>
    have := node.decideLegible
    have := DocumentNode.decideAllLegible nodes
    inferInstanceAs (Decidable (_ ∧ _))

def Document.decideLegible : (document : Document) → Decidable (document.Legible ids)
  | ⟨_, _, _, _, restrictions, _, _, _⟩ =>
    have := DocumentNode.decideAllLegible restrictions
    inferInstanceAs (Decidable (_ ∧ _ ∧ _ ∧ _ ∧ _ ∧ _ ∧ _ ∧ _))

end

instance (document : Document) : Decidable (document.Legible ids) := document.decideLegible

end Decide

namespace Json

theorem writableItems_map {α : Type} {items : List α} {toJson : α → Json}
    (writable : ∀ item ∈ items, (toJson item).Writable) : WritableItems (items.map toJson) := by
  induction items with
  | nil => trivial
  | cons item items ih =>
    obtain ⟨first, others⟩ := List.forall_mem_cons.mp writable
    exact ⟨first, ih others⟩

theorem writableMembers_append {members more : List (Text × Json)} :
    WritableMembers (members ++ more) ↔ WritableMembers members ∧ WritableMembers more := by
  induction members with
  | nil => simp [WritableMembers]
  | cons member members ih => simp only [List.cons_append, WritableMembers, ih, and_assoc]

theorem writableMembers_optional {key : String} {value : Json} (empty : Bool) (writable : value.Writable) :
    WritableMembers (if empty = true then [] else [(Text.ofString key, value)]) := by
  cases empty with
  | true => trivial
  | false => exact ⟨Text.isUtf8_ofString key, writable, trivial⟩

theorem writableMembers_text (key : String) {value : Text} (valid : value.isUtf8 = true) :
    WritableMembers (textMember key value) :=
  writableMembers_optional _ valid

theorem writableMembers_list (key : String) {items : List Json} (writable : WritableItems items) :
    WritableMembers (listMember key items) :=
  writableMembers_optional _ writable

theorem writableMembers_id (key : String) {id : PropertyId} (valid : id.text.isUtf8 = true) :
    WritableMembers (idMember key id) :=
  writableMembers_optional _ valid

theorem writableMembers_count (key : String) (count : Option Int) :
    WritableMembers (countMember key count) := by
  cases count with
  | none => trivial
  | some n => exact ⟨Text.isUtf8_ofString key, writable_ofInt n, trivial⟩

end Json

theorem PropertyRef.Legible.writable {ref : PropertyRef} (legible : ref.Legible ids)
    (valid : ∀ id, ids id → id.text.isUtf8 = true) : Json.WritableMembers ref.members :=
  Json.writableMembers_append.mpr
    ⟨Json.writableMembers_id _ (valid _ legible.id), Json.writableMembers_text _ legible.name⟩

theorem SelectedProperty.Legible.writable {property : SelectedProperty} (legible : property.Legible ids)
    (valid : ∀ id, ids id → id.text.isUtf8 = true) : property.toJson.Writable := by
  simp only [toJson, Json.Writable, Json.writableMembers_append]
  exact ⟨⟨⟨Json.writableMembers_id _ (valid _ legible.ref.id), Json.writableMembers_text _ legible.ref.name⟩,
    Json.writableMembers_text _ legible.label⟩, Json.writableMembers_text _ legible.function⟩

theorem DocumentOrdering.Legible.writable {ordering : DocumentOrdering} (legible : ordering.Legible ids)
    (valid : ∀ id, ids id → id.text.isUtf8 = true) : ordering.toJson.Writable :=
  Json.writableMembers_append.mpr
    ⟨legible.ref.writable valid, Json.writableMembers_text _ legible.direction⟩

theorem Value.Legible.writable {value : Value} (legible : value.Legible) : value.toJson.Writable := by
  cases value with
  | text t => exact legible
  | bool b => trivial
  | int n => exact Json.writable_ofInt n
  | unsigned _ | float _ | decimal _ | null => exact legible.elim

mutual

theorem DocumentNode.writable (valid : ∀ id, ids id → id.text.isUtf8 = true) :
    (node : DocumentNode) → node.Legible ids → node.toJson.Writable
  | ⟨_, _, args⟩, ⟨operator, ref, all⟩ =>
    ⟨Text.isUtf8_ofString _, operator, Json.writableMembers_append.mpr
      ⟨ref.writable valid, Json.writableMembers_list _ (Argument.allWritable valid args all)⟩⟩

theorem Argument.allWritable {operator : Text} (valid : ∀ id, ids id → id.text.isUtf8 = true) :
    (args : List Argument) → Argument.AllLegible ids operator args →
    Json.WritableItems (Argument.toJsons args)
  | [], _ => trivial
  | .value _ :: args, ⟨value, all⟩ => ⟨value.writable, Argument.allWritable valid args all⟩
  | .restriction node :: args, ⟨⟨_, legible⟩, all⟩ =>
    ⟨node.writable valid legible, Argument.allWritable valid args all⟩
  | .subquery document :: args, ⟨⟨_, legible⟩, all⟩ =>
    ⟨document.writable valid legible, Argument.allWritable valid args all⟩

theorem DocumentNode.allWritable (valid : ∀ id, ids id → id.text.isUtf8 = true) :
    (nodes : List DocumentNode) → DocumentNode.AllLegible ids nodes →
    Json.WritableItems (DocumentNode.toJsons nodes)
  | [], _ => trivial
  | node :: nodes, ⟨first, all⟩ => ⟨node.writable valid first, DocumentNode.allWritable valid nodes all⟩

/-- A document that is legible can be written out as JSON. -/
theorem Document.writable (valid : ∀ id, ids id → id.text.isUtf8 = true) :
    (document : Document) → document.Legible ids → document.toJson.Writable
  | ⟨_, _, _, _, restrictions, _, limit, offset⟩,
      ⟨typeId, typeName, properties, groupings, all, orderings, _, _⟩ => by
    simp only [Document.toJson, Json.Writable, Json.writableMembers_append]
    exact ⟨⟨⟨⟨⟨⟨⟨Json.writableMembers_text _ typeId, Json.writableMembers_text _ typeName⟩,
      Json.writableMembers_list _ (Json.writableItems_map fun property member =>
        (properties property member).writable valid)⟩,
      Json.writableMembers_list _ (Json.writableItems_map fun ref member =>
        (groupings ref member).writable valid)⟩,
      Json.writableMembers_list _ (DocumentNode.allWritable valid restrictions all)⟩,
      Json.writableMembers_list _ (Json.writableItems_map fun ordering member =>
        (orderings ordering member).writable valid)⟩,
      Json.writableMembers_count _ limit⟩, Json.writableMembers_count _ offset⟩

end

end RecordQuery
