import RecordQuery.Document.Encode
import RecordQuery.Proofs.Criteria.Accepted
import RecordQuery.Proofs.Schema.Identity

namespace RecordQuery.Schema

variable {schema : Schema} {type : RecordType}

theorem walk_of_refer (referred : schema.refer type path = .ok (ref, route)) :
    schema.walk type path = .ok route ∧ ref = ⟨route.ids, path⟩ := by
  obtain ⟨found, walked, same⟩ := bind_eq_ok.mp referred
  obtain ⟨rfl, rfl⟩ := Prod.mk.inj (pure_eq_ok.mp same)
  exact ⟨mapError_eq_ok.mp walked, rfl⟩

/-- Whatever is made of a path that is referred to. -/
theorem walk_of_referred {α : Type} {make : PropertyRef × Route → α} {result : α}
    (referred : (do return make (← schema.refer type path)) = .ok result) :
    ∃ route, schema.walk type path = .ok route ∧ result = make (⟨route.ids, path⟩, route) := by
  obtain ⟨⟨ref, route⟩, referred, same⟩ := bind_eq_ok.mp referred
  obtain ⟨walked, rfl⟩ := walk_of_refer referred
  exact ⟨route, walked, (pure_eq_ok.mp same).symm⟩

theorem walk_of_select (chosen : schema.select type path function = .ok property) :
    ∃ route, schema.walk type path = .ok route ∧
      property = ⟨⟨route.ids, path⟩, route.leaf.label, function⟩ :=
  walk_of_referred chosen

/-- The paths of the select list with the names of the functions over them. -/
def columns (properties : List Text) (aggregates : List AggregateCall) : List (Text × Text) :=
  properties.map (·, []) ++ aggregates.map fun call => (call.property, call.function.name)

theorem encodeSelect_eq (properties : List Text) (aggregates : List AggregateCall) :
    schema.encodeSelect type properties aggregates =
      (columns properties aggregates).mapM fun (path, function) => schema.select type path function := by
  rw [encodeSelect, columns, List.mapM_append]
  simp only [List.mapM_map]
  rfl

theorem Frames.mem_types {criteria : Criteria} (frames : schema.Frames packages criteria) :
    criteria.type ∈ schema.types :=
  List.mem_of_find?_eq_some (typeNamed?_of_resolve? frames.known)

section Nodes

theorem encodeNode_inQuery {query : Criteria}
    (encoded : schema.encodeNode type (.inQuery path query) = .ok node) :
    ∃ route document, schema.walk type path = .ok route ∧ schema.encode query = .ok document ∧
      node = ⟨Operator.isIn.name, ⟨route.ids, path⟩, [.subquery document]⟩ := by
  rw [encodeNode] at encoded
  obtain ⟨⟨ref, route⟩, referred, encoded⟩ := bind_eq_ok.mp encoded
  obtain ⟨document, inner, same⟩ := bind_eq_ok.mp encoded
  obtain ⟨walked, rfl⟩ := walk_of_refer referred
  exact ⟨route, document, walked, inner, (pure_eq_ok.mp same).symm⟩

theorem encodeNode_junction {children : List Restriction}
    (encoded : schema.encodeNode type (.junction connective children) = .ok node) :
    ∃ args, schema.encodeNodes type children = .ok args ∧ node = ⟨connective.name, {}, args⟩ := by
  rw [encodeNode] at encoded
  obtain ⟨args, inner, same⟩ := bind_eq_ok.mp encoded
  exact ⟨args, inner, (pure_eq_ok.mp same).symm⟩

theorem encodeNode_not {child : Restriction} (encoded : schema.encodeNode type (.not child) = .ok node) :
    ∃ inner, schema.encodeNode type child = .ok inner ∧
      node = ⟨Operator.not.name, {}, [.restriction inner]⟩ := by
  rw [encodeNode] at encoded
  obtain ⟨inner, first, same⟩ := bind_eq_ok.mp encoded
  exact ⟨inner, first, (pure_eq_ok.mp same).symm⟩

theorem encodeNodes_cons {child : Restriction} {children : List Restriction}
    (encoded : schema.encodeNodes type (child :: children) = .ok args) :
    ∃ node rest, schema.encodeNode type child = .ok node ∧ schema.encodeNodes type children = .ok rest ∧
      args = .restriction node :: rest := by
  rw [encodeNodes] at encoded
  obtain ⟨node, first, encoded⟩ := bind_eq_ok.mp encoded
  obtain ⟨rest, others, same⟩ := bind_eq_ok.mp encoded
  exact ⟨node, rest, first, others, (pure_eq_ok.mp same).symm⟩

end Nodes

/-- The parts of a document that are not restrictions. -/
structure Encodes (schema : Schema) (criteria : Criteria) (nodes : List DocumentNode) (document : Document) :
    Prop where
  select : schema.encodeSelect criteria.type criteria.properties criteria.aggregates = .ok document.properties
  group : schema.encodeGroupings criteria.type criteria.groupBy = .ok document.groupings
  order : schema.encodeOrderings criteria.type criteria.orderBy = .ok document.orderings
  same : document = ⟨criteria.type.id, criteria.type.name, document.properties, document.groupings, nodes,
    document.orderings, criteria.limit, criteria.offset⟩

theorem encodes_of_none {criteria : Criteria} (encoded : schema.encode criteria = .ok document)
    (without : criteria.restriction = none) : schema.Encodes criteria [] document := by
  cases criteria
  cases without
  rw [encode] at encoded
  obtain ⟨selected, select, encoded⟩ := bind_eq_ok.mp encoded
  obtain ⟨groupings, group, encoded⟩ := bind_eq_ok.mp encoded
  obtain ⟨orderings, order, same⟩ := bind_eq_ok.mp encoded
  obtain rfl := pure_eq_ok.mp same
  exact ⟨select, group, order, rfl⟩

theorem encodes_of_some {criteria : Criteria} {restriction : Restriction}
    (encoded : schema.encode criteria = .ok document) (given : criteria.restriction = some restriction) :
    ∃ node, schema.encodeNode criteria.type restriction = .ok node ∧
      schema.Encodes criteria [node] document := by
  cases criteria
  cases given
  rw [encode] at encoded
  obtain ⟨selected, select, encoded⟩ := bind_eq_ok.mp encoded
  obtain ⟨groupings, group, encoded⟩ := bind_eq_ok.mp encoded
  obtain ⟨node, inner, encoded⟩ := bind_eq_ok.mp encoded
  obtain ⟨orderings, order, same⟩ := bind_eq_ok.mp encoded
  obtain rfl := pure_eq_ok.mp same
  exact ⟨node, inner, select, group, order, rfl⟩

end RecordQuery.Schema
