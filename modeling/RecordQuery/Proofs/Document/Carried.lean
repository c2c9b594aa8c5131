import RecordQuery.Proofs.Compile.Sources
import RecordQuery.Proofs.Document.Encoded
import RecordQuery.Proofs.Document.Legible
import RecordQuery.Proofs.Document.RoundTrip
import RecordQuery.Proofs.Schema.Ids

namespace RecordQuery

theorem Aggregate.isUtf8_name (function : Aggregate) : function.name.isUtf8 = true := by
  cases function <;> decide

theorem Direction.isUtf8_name (direction : Direction) : direction.name.isUtf8 = true := by
  cases direction <;> decide

theorem Operator.isUtf8_name (operator : Operator) : operator.name.isUtf8 = true := by
  cases operator with
  | compare comparator => cases comparator <;> decide
  | connect connective => cases connective <;> decide
  | isIn | isNull | not => decide

namespace Schema

variable {schema : Schema} {type : RecordType}

theorem isInt64_of_counts {limit : Option Int} (counts : ∀ count ∈ limit, IsRowCount count) :
    ∀ count ∈ limit, IsInt64 count := by
  intro count given
  obtain ⟨positive, bounded⟩ := counts count given
  exact ⟨by omega, bounded⟩

section Legible

variable {ids : PropertyId → Prop} (valid : schema.IsUtf8) (member : type ∈ schema.types)

include valid member

theorem legible_ref (along : schema.IdsAlong ids type path) (walked : schema.walk type path = .ok route) :
    PropertyRef.Legible ids ⟨route.ids, path⟩ :=
  ⟨along route walked, valid.isUtf8_path member walked⟩

theorem legible_of_encodeSelect (plain : ∀ path ∈ properties, schema.IdsAlong ids type path)
    (calls : ∀ call ∈ aggregates, schema.IdsAlong ids type call.property)
    (encoded : schema.encodeSelect type properties aggregates = .ok selected) :
    ∀ property ∈ selected, property.Legible ids := by
  intro property inside
  rw [encodeSelect_eq] at encoded
  obtain ⟨⟨path, function⟩, listed, chosen⟩ := forall₂_mem_right (list_mapM_eq_ok.mp encoded) inside
  obtain ⟨route, walked, rfl⟩ := walk_of_select chosen
  have label := valid.isUtf8_label member walked
  rcases List.mem_append.mp listed with plainly | called
  · obtain ⟨_, given, same⟩ := List.mem_map.mp plainly
    cases same
    exact ⟨legible_ref valid member (plain _ given) walked, label, rfl⟩
  · obtain ⟨call, given, same⟩ := List.mem_map.mp called
    cases same
    exact ⟨legible_ref valid member (calls _ given) walked, label, call.function.isUtf8_name⟩

theorem legible_of_encodeGroupings (keys : ∀ path ∈ groupBy, schema.IdsAlong ids type path)
    (encoded : schema.encodeGroupings type groupBy = .ok groupings) : ∀ ref ∈ groupings, ref.Legible ids := by
  intro ref inside
  obtain ⟨path, listed, referred⟩ := forall₂_mem_right (list_mapM_eq_ok.mp encoded) inside
  obtain ⟨route, walked, rfl⟩ := walk_of_referred referred
  exact legible_ref valid member (keys path listed) walked

theorem legible_of_encodeOrderings (keys : ∀ key ∈ orderBy, schema.IdsAlong ids type key.property)
    (encoded : schema.encodeOrderings type orderBy = .ok orderings) :
    ∀ ordering ∈ orderings, ordering.Legible ids := by
  intro ordering inside
  obtain ⟨key, listed, referred⟩ := forall₂_mem_right (list_mapM_eq_ok.mp encoded) inside
  obtain ⟨route, walked, rfl⟩ := walk_of_referred referred
  exact ⟨legible_ref valid member (keys key listed) walked, key.direction.isUtf8_name⟩

theorem legible_of_encodeLeaf (along : schema.IdsAlong ids type path)
    (encoded : schema.encodeLeaf type operator path args = .ok node)
    (legible : Argument.AllLegible ids operator.name args) : node.Legible ids := by
  obtain ⟨route, walked, rfl⟩ := walk_of_referred encoded
  exact ⟨operator.isUtf8_name, legible_ref valid member along walked, legible⟩

omit member in
/-- A document is legible if its restrictions are. -/
theorem legible_of_encodes {criteria : Criteria} (frames : schema.Frames packages criteria)
    (along : schema.IdsOfQuery ids criteria) (encodes : schema.Encodes criteria nodes document)
    (legible : DocumentNode.AllLegible ids nodes) : document.Legible ids := by
  obtain ⟨plain, calls, groups, orders, -⟩ := idsOfQuery_iff.mp along
  have member := frames.mem_types
  obtain ⟨typeId, typeName⟩ := valid.types criteria.type member
  rw [encodes.same]
  exact ⟨typeId, typeName, legible_of_encodeSelect valid member plain calls encodes.select,
    legible_of_encodeGroupings valid member groups encodes.group, legible,
    legible_of_encodeOrderings valid member orders encodes.order, isInt64_of_counts frames.limit,
    isInt64_of_counts frames.offset⟩

end Legible

section LegibleTree

variable {ids : PropertyId → Prop} {packages : Packages}

theorem allLegible_values {values : List Value} (each : ∀ value ∈ values, value.Legible) (operator : Text) :
    Argument.AllLegible ids operator (values.map .value) := by
  induction values with
  | nil => trivial
  | cons value values ih =>
    obtain ⟨first, others⟩ := List.forall_mem_cons.mp each
    exact ⟨first, ih others⟩

mutual

/-- The node of a restriction can be carried by JSON. -/
theorem legible_of_encodeNode {type : RecordType} (valid : schema.IsUtf8) (blank : ids [])
    (member : type ∈ schema.types) : (restriction : Restriction) → schema.Admits packages type restriction →
    schema.IdsOfTree ids type restriction → (∀ value ∈ restriction.values, value.Legible) →
    ∀ node, schema.encodeNode type restriction = .ok node → node.Legible ids
  | .missing, admitted, _, _, _, _ => admitted.elim
  | .comparison _ _ _, _, along, values, _, encoded =>
    legible_of_encodeLeaf valid member ((idsOfTree_leaf rfl rfl rfl).mp along) encoded
      ⟨values _ (.head _), trivial⟩
  | .isNull _, _, along, _, _, encoded =>
    legible_of_encodeLeaf valid member ((idsOfTree_leaf rfl rfl rfl).mp along) encoded trivial
  | .inValues _ _, _, along, values, _, encoded =>
    legible_of_encodeLeaf valid member ((idsOfTree_leaf rfl rfl rfl).mp along) encoded
      (allLegible_values values _)
  | .inQuery _ query, ⟨_, _, accepted⟩, along, values, _, encoded => by
    obtain ⟨own, nested⟩ := idsOfTree_inQuery.mp along
    obtain ⟨route, document, walked, inner, rfl⟩ := encodeNode_inQuery encoded
    have legible := legible_of_encode valid blank query accepted nested values document inner
    exact ⟨Operator.isIn.isUtf8_name, legible_ref valid member own walked,
      ⟨ofName?_name .isIn, legible⟩, trivial⟩
  | .junction connective children, ⟨_, admitted⟩, along, values, _, encoded => by
    obtain ⟨args, inner, rfl⟩ := encodeNode_junction encoded
    have nested : nests connective.name = true := by cases connective <;> decide
    have legible := legible_of_encodeNodes valid blank member nested children admitted
      (idsOfTree_junction.mp along) values args inner
    exact ⟨Operator.isUtf8_name (.connect connective), ⟨blank, rfl⟩, legible⟩
  | .not child, admitted, along, values, _, encoded => by
    obtain ⟨node, inner, rfl⟩ := encodeNode_not encoded
    have legible := legible_of_encodeNode valid blank member child admitted (idsOfTree_not.mp along) values
      node inner
    exact ⟨Operator.not.isUtf8_name, ⟨blank, rfl⟩, ⟨by decide, legible⟩, trivial⟩

theorem legible_of_encodeNodes {type : RecordType} {operator : Text} (valid : schema.IsUtf8) (blank : ids [])
    (member : type ∈ schema.types) (nested : nests operator = true) :
    (children : List Restriction) → schema.AdmitsAll packages type children →
    (∀ child ∈ children, schema.IdsOfTree ids type child) →
    (∀ value ∈ Restriction.valuesAll children, value.Legible) →
    ∀ args, schema.encodeNodes type children = .ok args → Argument.AllLegible ids operator args
  | [], _, _, _, args, encoded => by
    rw [encodeNodes] at encoded
    cases encoded
    trivial
  | child :: children, ⟨admitted, others⟩, along, values, args, encoded => by
    obtain ⟨node, rest, first, more, rfl⟩ := encodeNodes_cons encoded
    obtain ⟨own, later⟩ := List.forall_mem_cons.mp along
    obtain ⟨ownValues, laterValues⟩ := List.forall_mem_append.mp values
    exact ⟨⟨nested, legible_of_encodeNode valid blank member child admitted own ownValues node first⟩,
      legible_of_encodeNodes valid blank member nested children others later laterValues rest more⟩

theorem legible_of_encode (valid : schema.IsUtf8) (blank : ids []) :
    (criteria : Criteria) → schema.Accepts packages criteria → schema.IdsOfQuery ids criteria →
    (∀ value ∈ criteria.values, value.Legible) →
    ∀ document, schema.encode criteria = .ok document → document.Legible ids
  | ⟨_, _, _, none, _, _, _, _, _, _⟩, frames, along, _, _, encoded =>
    legible_of_encodes valid frames along (encodes_of_none encoded rfl) trivial
  | ⟨_, _, _, some restriction, _, _, _, _, _, _⟩, ⟨frames, admitted⟩, along, values, _, encoded => by
    obtain ⟨node, inner, encodes⟩ := encodes_of_some encoded rfl
    obtain ⟨-, -, -, -, trees⟩ := idsOfQuery_iff.mp along
    have legible := legible_of_encodeNode valid blank frames.mem_types restriction admitted (trees _ rfl)
      values node inner
    exact legible_of_encodes valid frames along encodes ⟨legible, trivial⟩

end

end LegibleTree
end Schema
end RecordQuery
