import RecordQuery.Document.Write
import RecordQuery.Proofs.Document.Encoded
import RecordQuery.Proofs.Json.RoundTrip

/-! How deep the JSON of a query is nested: two levels for each level of the query, and three for what
stands around them. -/
namespace RecordQuery

namespace Json

variable {members more : List (Text × Json)}

@[simp] theorem memberNesting_append :
    memberNesting (members ++ more) = max (memberNesting members) (memberNesting more) := by
  induction members with
  | nil => simp [memberNesting]
  | cons member members ih => simp only [List.cons_append, memberNesting, ih, Nat.max_assoc]

@[simp] theorem memberNesting_text (key : String) (value : Text) :
    memberNesting (textMember key value) = 0 := by
  rw [textMember]
  split <;> rfl

@[simp] theorem memberNesting_id (key : String) (id : PropertyId) : memberNesting (idMember key id) = 0 := by
  rw [idMember]
  split <;> rfl

@[simp] theorem memberNesting_count (key : String) (count : Option Int) :
    memberNesting (countMember key count) = 0 := by
  cases count <;> rfl

theorem memberNesting_list (key : String) (items : List Json) :
    memberNesting (listMember key items) ≤ itemNesting items + 1 := by
  rw [listMember]
  split
  · exact Nat.zero_le _
  · simp [memberNesting, nesting]

theorem itemNesting_map_le {α : Type} {items : List α} {toJson : α → Json}
    (each : ∀ item ∈ items, (toJson item).nesting ≤ n) : itemNesting (items.map toJson) ≤ n := by
  induction items with
  | nil => exact Nat.zero_le _
  | cons item items ih =>
    obtain ⟨first, others⟩ := List.forall_mem_cons.mp each
    exact Nat.max_le.mpr ⟨first, ih others⟩

end Json

open Json

theorem Value.nesting_toJson (value : Value) : value.toJson.nesting = 0 := by
  cases value <;> rfl

theorem itemNesting_values (values : List Value) :
    itemNesting (Argument.toJsons (values.map .value)) = 0 := by
  induction values with
  | nil => rfl
  | cons value values ih =>
    simp only [List.map_cons, Argument.toJsons, Argument.toJson, itemNesting, value.nesting_toJson, ih,
      Nat.max_self]

@[simp] theorem PropertyRef.memberNesting_members (ref : PropertyRef) : memberNesting ref.members = 0 := by
  simp [members]

theorem DocumentNode.nesting_toJson_le (operator : Text) (ref : PropertyRef) (args : List Argument) :
    (DocumentNode.mk operator ref args).toJson.nesting ≤ itemNesting (Argument.toJsons args) + 2 := by
  have list := memberNesting_list "args" (Argument.toJsons args)
  simp only [toJson, nesting, List.cons_append, memberNesting, memberNesting_append,
    PropertyRef.memberNesting_members]
  omega

theorem Document.nesting_toJson_le (typeId typeName : Text) (properties : List SelectedProperty)
    (groupings : List PropertyRef) (nodes : List DocumentNode) (orderings : List DocumentOrdering)
    (limit offset : Option Int) :
    (Document.mk typeId typeName properties groupings nodes orderings limit offset).toJson.nesting ≤
      max 3 (itemNesting (DocumentNode.toJsons nodes) + 2) := by
  have selected : itemNesting (properties.map (·.toJson)) ≤ 1 :=
    itemNesting_map_le fun property _ => by simp [SelectedProperty.toJson, nesting]
  have grouped : itemNesting (groupings.map fun ref => .object ref.members) ≤ 1 :=
    itemNesting_map_le fun ref _ => by simp [nesting]
  have ordered : itemNesting (orderings.map (·.toJson)) ≤ 1 :=
    itemNesting_map_le fun ordering _ => by simp [DocumentOrdering.toJson, nesting]
  have first := memberNesting_list "properties" (properties.map (·.toJson))
  have second := memberNesting_list "groupings" (groupings.map fun ref => .object ref.members)
  have third := memberNesting_list "restrictions" (DocumentNode.toJsons nodes)
  have fourth := memberNesting_list "orderings" (orderings.map (·.toJson))
  simp only [toJson, nesting, memberNesting_append, memberNesting_text, memberNesting_count]
  omega

namespace Schema

variable {schema : Schema}

theorem nesting_of_encodeLeaf (encoded : schema.encodeLeaf type operator path args = .ok node)
    (flat : itemNesting (Argument.toJsons args) = 0) : node.toJson.nesting ≤ 3 := by
  obtain ⟨route, -, rfl⟩ := walk_of_referred encoded
  exact Nat.le_trans (DocumentNode.nesting_toJson_le ..) (by omega)

mutual

theorem nesting_of_encodeNode {type : RecordType} : (restriction : Restriction) →
    ∀ node, schema.encodeNode type restriction = .ok node →
    node.toJson.nesting ≤ 2 * restriction.levels + 1
  | .missing, _, encoded => by cases encoded
  | .comparison _ _ value, _, encoded => nesting_of_encodeLeaf encoded (itemNesting_values [value])
  | .isNull _, _, encoded => nesting_of_encodeLeaf encoded rfl
  | .inValues _ values, _, encoded => nesting_of_encodeLeaf encoded (itemNesting_values values)
  | .inQuery _ query, _, encoded => by
    obtain ⟨route, document, -, inner, rfl⟩ := encodeNode_inQuery encoded
    have nested := nesting_of_encode query document inner
    refine Nat.le_trans (DocumentNode.nesting_toJson_le _ _ _) ?_
    simp only [Argument.toJsons, Argument.toJson, itemNesting, Restriction.levels]
    omega
  | .junction _ children, _, encoded => by
    obtain ⟨args, inner, rfl⟩ := encodeNode_junction encoded
    have nested := nesting_of_encodeNodes children args inner
    refine Nat.le_trans (DocumentNode.nesting_toJson_le _ _ _) ?_
    simp only [Restriction.levels]
    omega
  | .not child, _, encoded => by
    obtain ⟨node, inner, rfl⟩ := encodeNode_not encoded
    have nested := nesting_of_encodeNode child node inner
    refine Nat.le_trans (DocumentNode.nesting_toJson_le _ _ _) ?_
    simp only [Argument.toJsons, Argument.toJson, itemNesting, Restriction.levels]
    omega

theorem nesting_of_encodeNodes {type : RecordType} : (children : List Restriction) →
    ∀ args, schema.encodeNodes type children = .ok args →
    itemNesting (Argument.toJsons args) ≤ 2 * Restriction.levelsAll children + 1
  | [], args, encoded => by
    rw [encodeNodes] at encoded
    cases encoded
    exact Nat.zero_le _
  | child :: children, args, encoded => by
    obtain ⟨node, rest, first, more, rfl⟩ := encodeNodes_cons encoded
    have head := nesting_of_encodeNode child node first
    have tail := nesting_of_encodeNodes children rest more
    simp only [Argument.toJsons, Argument.toJson, itemNesting, Restriction.levelsAll]
    omega

/-- The document of a query is nested no deeper than the levels of the query ask for. -/
theorem nesting_of_encode : (criteria : Criteria) → ∀ document, schema.encode criteria = .ok document →
    document.toJson.nesting ≤ 2 * criteria.levels + 3
  | ⟨_, _, _, none, _, _, _, _, _, _⟩, document, encoded => by
    rw [(encodes_of_none encoded rfl).same]
    exact Nat.le_trans (Document.nesting_toJson_le ..) (by simp [DocumentNode.toJsons, itemNesting])
  | ⟨_, _, _, some restriction, _, _, _, _, _, _⟩, document, encoded => by
    obtain ⟨node, inner, encodes⟩ := encodes_of_some encoded rfl
    have nested := nesting_of_encodeNode restriction node inner
    rw [encodes.same]
    refine Nat.le_trans (Document.nesting_toJson_le ..) ?_
    simp only [DocumentNode.toJsons, itemNesting, Criteria.levels]
    split <;> omega

end

end Schema
end RecordQuery
