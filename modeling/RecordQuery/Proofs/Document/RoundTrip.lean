import RecordQuery.Document.Decode
import RecordQuery.Document.Encode
import RecordQuery.Proofs.Document.Lawful
import RecordQuery.Proofs.Schema.Identity

namespace RecordQuery

namespace Schema

theorem ofName?_name (operator : Operator) : Operator.ofName? operator.name = some operator := by
  cases operator with
  | compare comparator => cases comparator <;> decide
  | connect connective => cases connective <;> decide
  | isIn => decide
  | isNull => decide
  | not => decide

theorem refer_eq_ok {schema : Schema} (walked : schema.walk type path = .ok route) :
    schema.refer type path = .ok (⟨route.ids, path⟩, route) := by
  rw [refer, walked]
  rfl

theorem select_eq_ok {schema : Schema} (walked : schema.walk type path = .ok route) :
    schema.select type path function = .ok ⟨⟨route.ids, path⟩, route.leaf.label, function⟩ := by
  rw [select, refer_eq_ok walked]
  rfl

theorem encode_of_none {schema : Schema} {criteria : Criteria}
    (select : schema.encodeSelect criteria.type criteria.properties criteria.aggregates = .ok selected)
    (group : schema.encodeGroupings criteria.type criteria.groupBy = .ok groupings)
    (order : schema.encodeOrderings criteria.type criteria.orderBy = .ok orderings)
    (without : criteria.restriction = none) :
    schema.encode criteria = .ok ⟨criteria.type.id, criteria.type.name, selected, groupings, [],
      orderings, criteria.limit, criteria.offset⟩ := by
  cases criteria
  cases without
  rw [encode]
  exact bind_eq_ok.mpr ⟨_, select, bind_eq_ok.mpr ⟨_, group, bind_eq_ok.mpr ⟨_, order, rfl⟩⟩⟩

theorem encode_of_some {schema : Schema} {criteria : Criteria} {restriction : Restriction}
    (select : schema.encodeSelect criteria.type criteria.properties criteria.aggregates = .ok selected)
    (group : schema.encodeGroupings criteria.type criteria.groupBy = .ok groupings)
    (order : schema.encodeOrderings criteria.type criteria.orderBy = .ok orderings)
    (given : criteria.restriction = some restriction)
    (encoded : schema.encodeNode criteria.type restriction = .ok node) :
    schema.encode criteria = .ok ⟨criteria.type.id, criteria.type.name, selected, groupings, [node],
      orderings, criteria.limit, criteria.offset⟩ := by
  cases criteria
  cases given
  rw [encode]
  exact bind_eq_ok.mpr ⟨_, select, bind_eq_ok.mpr ⟨_, group, bind_eq_ok.mpr ⟨_, encoded,
    bind_eq_ok.mpr ⟨_, order, rfl⟩⟩⟩⟩

/-- What a document can say of a query: its type is known, and its parts obey the rules. -/
structure Grounded (schema : Schema) (query : Criteria) : Prop where
  known : schema.typeNamed? query.type.name = some query.type
  consistent : schema.Consistent query

theorem Grounded.mem_types {schema : Schema} {query : Criteria} (grounded : schema.Grounded query) :
    query.type ∈ schema.types :=
  List.mem_of_find?_eq_some grounded.known

theorem grounded_of_accepts {schema : Schema} {criteria : Criteria}
    (accepted : schema.Accepts packages criteria) : schema.Grounded criteria :=
  ⟨typeNamed?_of_resolve? (accepts_iff.mp accepted).1.known, (lawful_of_accepts accepted).consistent⟩

end Schema

namespace Decoder

/-- What is selected, with the function over it, in the order of a document. -/
def selection (properties : List Text) (aggregates : List AggregateCall) :
    List (Text × Option Aggregate) :=
  properties.map (·, none) ++ aggregates.map fun call => (call.property, some call.function)

theorem selection_properties (properties : List Text) (aggregates : List AggregateCall) :
    (selection properties aggregates).filterMap
      (fun (path, function) => if function.isNone then some path else none) = properties := by
  simp [selection, List.filterMap_map]

theorem selection_aggregates (properties : List Text) (aggregates : List AggregateCall) :
    (selection properties aggregates).filterMap
      (fun (path, function) => function.map (⟨·, path⟩)) = aggregates := by
  simp [selection, List.filterMap_map]

variable {decoder : Decoder} {type : RecordType} {path : Text} {route : Route}

section Refer

variable (identified : decoder.schema.Identified) (member : type ∈ decoder.schema.types)

include identified member

theorem baseType_eq_ok (known : decoder.schema.typeNamed? type.name = some type) :
    decoder.baseType type.id type.name = .ok type := by
  rw [baseType]
  split
  · rw [identified.typeById? member]
    simp
  · have named : type.name ≠ [] := identified.named type member
    simp [named, Schema.resolve?_of_typeNamed? known]

theorem resolve_eq_ok (walked : decoder.schema.walk type path = .ok route) :
    decoder.resolve type ⟨route.ids, path⟩ = .ok (path, route) := by
  have filled : route.ids ≠ [] := by simp [Route.ids, Route.steps]
  rw [resolve]
  simp [filled, identified.walkIds member walked, Except.mapError, bind, Except.bind, pure, Except.pure]

theorem key_eq_ok (walked : decoder.schema.walk type path = .ok route)
    (single : route.leaf.kind.isCollection = false) :
    decoder.key type ⟨route.ids, path⟩ = .ok (path, route.leaf) := by
  rw [key, resolve_eq_ok identified member walked]
  simp [single, bind, Except.bind, pure, Except.pure]

theorem selected_property (walked : decoder.schema.walk type path = .ok route)
    (single : route.leaf.kind.isPrimitive = true) :
    decoder.selected type ⟨⟨route.ids, path⟩, label, []⟩ = .ok (path, none) := by
  rw [selected, resolve_eq_ok identified member walked]
  simp [single, bind, Except.bind, pure, Except.pure]

theorem selected_aggregate (walked : decoder.schema.walk type path = .ok route)
    (single : route.leaf.kind.isPrimitive = true) (named : function ≠ .unnamed) :
    decoder.selected type ⟨⟨route.ids, path⟩, label, function.name⟩ = .ok (path, some function) := by
  have written : function.name ≠ [] ∧ Aggregate.ofName? function.name = some function := by
    cases function
    case unnamed => exact absurd rfl named
    all_goals decide
  rw [selected, resolve_eq_ok identified member walked]
  simp [single, written, bind, Except.bind, pure, Except.pure]

theorem sortKey_eq_ok (walked : decoder.schema.walk type path = .ok route)
    (single : route.leaf.kind.isCollection = false) :
    decoder.sortKey type ⟨⟨route.ids, path⟩, direction.name⟩ = .ok ⟨path, direction⟩ := by
  have written : direction.name ≠ [] ∧ Direction.ofName? direction.name = some direction := by
    cases direction <;> decide
  rw [sortKey, key_eq_ok identified member walked single]
  simp [written, bind, Except.bind, pure, Except.pure]

end Refer

section Parts

variable (identified : decoder.schema.Identified) (member : type ∈ decoder.schema.types)

include identified member

/-- The select list of a document is the one of the query, properties first. -/
theorem encodeSelect_decodes
    (values : ∀ path ∈ properties, decoder.schema.HasValue type path)
    (calls : ∀ call ∈ aggregates, decoder.schema.LawfulCall type call) :
    ∃ selected, decoder.schema.encodeSelect type properties aggregates = .ok selected ∧
      selected.mapM (decoder.selected type) = .ok (selection properties aggregates) := by
  obtain ⟨plain, encoded, decoded⟩ : ∃ codes,
      (properties.mapM fun path => decoder.schema.select type path []) = .ok codes ∧
        codes.mapM (decoder.selected type) = .ok (properties.map (·, none)) := by
    apply mapM_mapM
    intro path listed
    obtain ⟨route, walked, single⟩ := values path listed
    exact ⟨_, Schema.select_eq_ok walked, selected_property identified member walked single⟩
  obtain ⟨aggregated, encoded', decoded'⟩ : ∃ codes,
      (aggregates.mapM fun call => decoder.schema.select type call.property call.function.name) =
        .ok codes ∧ codes.mapM (decoder.selected type) =
          .ok (aggregates.map fun call => (call.property, some call.function)) := by
    apply mapM_mapM
    intro call listed
    obtain ⟨named, route, walked, single, -⟩ := calls call listed
    exact ⟨_, Schema.select_eq_ok walked, selected_aggregate identified member walked single named⟩
  refine ⟨plain ++ aggregated, ?_, ?_⟩
  · rw [Schema.encodeSelect, encoded, encoded']
    rfl
  · rw [List.mapM_append, decoded, decoded']
    rfl

theorem encodeGroupings_decodes
    (keys : ∀ path ∈ groupBy, decoder.schema.HasKey type path) :
    ∃ groupings, decoder.schema.encodeGroupings type groupBy = .ok groupings ∧
      (groupings.mapM fun ref => do return (← decoder.key type ref).1) = .ok groupBy := by
  rw [Schema.encodeGroupings]
  nth_rewrite 2 [← List.map_id groupBy]
  apply mapM_mapM
  intro path listed
  obtain ⟨route, walked, single⟩ := keys path listed
  refine ⟨⟨route.ids, path⟩, ?_, ?_⟩
  · rw [Schema.refer_eq_ok walked]
    rfl
  · rw [key_eq_ok identified member walked single]
    rfl

theorem encodeOrderings_decodes
    (keys : ∀ key ∈ orderBy, decoder.schema.HasKey type key.property) :
    ∃ orderings, decoder.schema.encodeOrderings type orderBy = .ok orderings ∧
      orderings.mapM (decoder.sortKey type) = .ok orderBy := by
  rw [Schema.encodeOrderings]
  nth_rewrite 2 [← List.map_id orderBy]
  apply mapM_mapM
  intro key listed
  obtain ⟨route, walked, single⟩ := keys key listed
  refine ⟨⟨⟨route.ids, key.property⟩, key.direction.name⟩, ?_, ?_⟩
  · rw [Schema.refer_eq_ok walked]
    rfl
  · exact sortKey_eq_ok identified member walked single

end Parts

/-- The rules of documents hold of a query that obeys the rules by its parts. -/
theorem validate_eq_ok {schema : Schema} {criteria : Criteria} (consistent : schema.Consistent criteria) :
    schema.validate criteria = .ok () := by
  refine validate_eq_ok_iff.mpr ⟨?_, Criteria.checkGrouping_eq_ok_iff.mpr consistent.grouped⟩
  intro call listed
  obtain ⟨-, route, walked, -, numeric⟩ := consistent.aggregates call listed
  exact ⟨route, walked, checkAggregate_eq_ok_iff.mpr numeric⟩

theorem values_map_value (written : Text) (listed : List Value) :
    values written (listed.map .value) = .ok listed := by
  induction listed with
  | nil => rfl
  | cons value listed ih =>
    rw [List.map_cons, values, ih]
    rfl

/-- A document is decoded part by part. -/
theorem document_eq_ok {criteria : Criteria} {chosen : List SelectedProperty}
    {groupings : List PropertyRef} {orderings : List DocumentOrdering}
    (consistent : decoder.schema.Consistent criteria)
    (base : decoder.baseType typeId typeName = .ok criteria.type)
    (selects : chosen.mapM (decoder.selected criteria.type) =
      .ok (selection criteria.properties criteria.aggregates))
    (groups : (groupings.mapM fun ref => do return (← decoder.key criteria.type ref).1) =
      .ok criteria.groupBy)
    (decoded : decoder.nodes criteria.type depth restrictions = .ok roots)
    (joined : conjunction roots = criteria.restriction)
    (orders : orderings.mapM (decoder.sortKey criteria.type) = .ok criteria.orderBy) :
    decoder.document depth criteria.isSubquery ⟨typeId, typeName, chosen, groupings, restrictions,
      orderings, criteria.limit, criteria.offset⟩ = .ok criteria := by
  rw [document]
  refine bind_eq_ok.mpr ⟨_, base, bind_eq_ok.mpr ⟨_, selects, bind_eq_ok.mpr ⟨_, groups, ?_⟩⟩⟩
  refine bind_eq_ok.mpr ⟨_, decoded, bind_eq_ok.mpr ⟨_, orders, ?_⟩⟩
  refine bind_eq_ok.mpr ⟨_, checkCount_eq_ok_iff.mpr consistent.limit, ?_⟩
  refine bind_eq_ok.mpr ⟨_, checkCount_eq_ok_iff.mpr consistent.offset, ?_⟩
  simp only [selection_properties, selection_aggregates, eraseDups_of_nodup consistent.distinct,
    eraseDups_of_nodup consistent.distinctKeys, joined]
  have valid := validate_eq_ok consistent
  refine bind_eq_ok.mpr ⟨(), mapError_eq_ok.mpr valid, ?_⟩
  change Except.ok { criteria with aliases := Aliases.ofPaths criteria.paths } = _
  rw [← consistent.aliases]
  cases criteria
  rfl

/-- A query is what its document says if its restriction is what its node says. -/
theorem encode_decodes_of_grounded {criteria : Criteria} (decoder : Decoder) (depth : Nat)
    (identified : decoder.schema.Identified) (grounded : decoder.schema.Grounded criteria)
    (restricted : ∀ restriction ∈ criteria.restriction,
      ∃ node, decoder.schema.encodeNode criteria.type restriction = .ok node ∧
        decoder.node criteria.type depth node = .ok restriction) :
    ∃ document, decoder.schema.encode criteria = .ok document ∧
      decoder.document depth criteria.isSubquery document = .ok criteria := by
  have member := grounded.mem_types
  have consistent := grounded.consistent
  have base := baseType_eq_ok identified member grounded.known
  obtain ⟨selected, select, selects⟩ :=
    encodeSelect_decodes identified member consistent.properties consistent.aggregates
  obtain ⟨groupings, group, groups⟩ := encodeGroupings_decodes identified member consistent.groupBy
  obtain ⟨orderings, order, orders⟩ := encodeOrderings_decodes identified member consistent.orderBy
  cases given : criteria.restriction with
  | none =>
    have nothing : decoder.nodes criteria.type depth [] = .ok [] := by rw [Decoder.nodes]
    exact ⟨_, Schema.encode_of_none select group order given,
      document_eq_ok consistent base selects groups nothing given.symm orders⟩
  | some restriction =>
    obtain ⟨node, encoded, decoded⟩ := restricted _ given
    have only : decoder.nodes criteria.type depth [node] = .ok [restriction] := by
      rw [Decoder.nodes, decoded, Decoder.nodes]
      rfl
    exact ⟨_, Schema.encode_of_some select group order given encoded,
      document_eq_ok consistent base selects groups only given.symm orders⟩

/-- The document of a query that makes sense, if its restriction survives. -/
theorem encode_decodes {packages : Packages} {criteria : Criteria} (decoder : Decoder) (depth : Nat)
    (identified : decoder.schema.Identified)
    (nodes : ∀ type restriction, type ∈ decoder.schema.types →
      decoder.schema.Admits packages type restriction → restriction.levels ≤ depth →
      ∃ node, decoder.schema.encodeNode type restriction = .ok node ∧
        decoder.node type depth node = .ok restriction)
    (accepted : decoder.schema.Accepts packages criteria) (levels : criteria.levels ≤ depth) :
    ∃ document, decoder.schema.encode criteria = .ok document ∧
      decoder.document depth criteria.isSubquery document = .ok criteria := by
  have grounded := Schema.grounded_of_accepts accepted
  refine encode_decodes_of_grounded decoder depth identified grounded ?_
  intro restriction given
  exact nodes _ _ grounded.mem_types ((Schema.accepts_iff.mp accepted).2 _ given)
    (Nat.le_trans (Criteria.levels_restriction_le given) levels)

/-- Nested restrictions are what their nodes say if each is. -/
theorem encodeNodes_decodes {restrictions : List Restriction}
    (each : ∀ child ∈ restrictions, ∃ node, decoder.schema.encodeNode type child = .ok node ∧
      decoder.node type depth node = .ok child) (written : Text) :
    ∃ args, decoder.schema.encodeNodes type restrictions = .ok args ∧
      decoder.children type depth written args = .ok restrictions := by
  induction restrictions with
  | nil => exact ⟨[], by rw [Schema.encodeNodes], by rw [children]⟩
  | cons child restrictions ih =>
    obtain ⟨node, encoded, decoded⟩ := each child (.head _)
    obtain ⟨args, rest, back⟩ := ih fun other member => each other (.tail _ member)
    refine ⟨.restriction node :: args, ?_, ?_⟩
    · rw [Schema.encodeNodes, encoded, rest]
      rfl
    · rw [children, decoded, back]
      rfl

theorem combine_eq_ok {restrictions : List Restriction} (two : 2 ≤ restrictions.length) :
    combine written (some connective) restrictions = .ok (.junction connective restrictions) := by
  cases restrictions with
  | nil => cases two
  | cons first rest =>
    cases rest with
    | nil => exact absurd two (by simp)
    | cons second rest => rfl

theorem encodeLeaf_eq_ok {schema : Schema} (walked : schema.walk type path = .ok route) :
    schema.encodeLeaf type operator path args =
      .ok ⟨operator.name, ⟨route.ids, path⟩, args⟩ := by
  rw [Schema.encodeLeaf, Schema.refer_eq_ok walked]
  rfl

/-- A property among the results of a query, if the query is what its document says. -/
theorem encodeInQuery_decodes (identified : decoder.schema.Identified) (member : type ∈ decoder.schema.types)
    (walked : decoder.schema.walk type path = .ok route) (single : route.leaf.kind.isCollection = false)
    (like : decoder.schema.SelectsLike route.leaf query) (deep : depth ≠ 0)
    (nested : ∃ document, decoder.schema.encode query = .ok document ∧
      decoder.document (depth - 2) true document = .ok query) :
    ∃ node, decoder.schema.encodeNode type (.inQuery path query) = .ok node ∧
      decoder.node type depth node = .ok (.inQuery path query) := by
  obtain ⟨document, encoded, decoded⟩ := nested
  refine ⟨⟨Operator.isIn.name, ⟨route.ids, path⟩, [.subquery document]⟩, ?_, ?_⟩
  · rw [Schema.encodeNode, Schema.refer_eq_ok walked, encoded]
    rfl
  · have checked : decoder.schema.checkSubquery path route.leaf query = .ok () :=
      Schema.checkSubquery_eq_ok_iff.mpr like
    rw [node.eq_def]
    simp only [deep, ↓reduceIte, Schema.ofName?_name, key_eq_ok identified member walked single,
      decoded, checked, bind, Except.bind]
    rfl

/-- A junction, if each of its restrictions is what its node says. -/
theorem encodeJunction_decodes {restrictions : List Restriction} (connective : Connective) (deep : depth ≠ 0)
    (two : 2 ≤ restrictions.length)
    (each : ∀ child ∈ restrictions, ∃ node, decoder.schema.encodeNode type child = .ok node ∧
      decoder.node type (depth - 1) node = .ok child) :
    ∃ node, decoder.schema.encodeNode type (.junction connective restrictions) = .ok node ∧
      decoder.node type depth node = .ok (.junction connective restrictions) := by
  obtain ⟨args, encoded, decoded⟩ := encodeNodes_decodes each connective.name
  refine ⟨⟨connective.name, {}, args⟩, ?_, ?_⟩
  · rw [Schema.encodeNode, encoded]
    rfl
  · have named : Operator.ofName? connective.name = some (.connect connective) :=
      Schema.ofName?_name (.connect connective)
    rw [node.eq_def]
    simp only [deep, ↓reduceIte, named, decoded, bind, Except.bind]
    exact combine_eq_ok two

/-- A negation, if what it negates is what its node says. -/
theorem encodeNot_decodes {restriction : Restriction} (deep : depth ≠ 0)
    (nested : ∃ node, decoder.schema.encodeNode type restriction = .ok node ∧
      decoder.node type (depth - 1) node = .ok restriction) :
    ∃ node, decoder.schema.encodeNode type (.not restriction) = .ok node ∧
      decoder.node type depth node = .ok (.not restriction) := by
  obtain ⟨inner, encoded, decoded⟩ := nested
  refine ⟨⟨Operator.not.name, {}, [.restriction inner]⟩, ?_, ?_⟩
  · rw [Schema.encodeNode, encoded]
    rfl
  · rw [node.eq_def]
    simp only [deep, ↓reduceIte, Schema.ofName?_name, children, decoded]
    rfl

/-- A restriction whose nodes and subqueries obey the rules is what its node says. -/
theorem encodeNode_decodes_of_grounded {restriction : Restriction}
    (identified : decoder.schema.Identified) (member : type ∈ decoder.schema.types)
    (nodes : ∀ node ∈ restriction.nodes, decoder.schema.LawfulNode type node)
    (queries : ∀ query ∈ restriction.subqueries, decoder.schema.Grounded query)
    (levels : restriction.levels ≤ depth) :
    ∃ node, decoder.schema.encodeNode type restriction = .ok node ∧
      decoder.node type depth node = .ok restriction := by
  -- A subquery is two levels down, so the induction is on all smaller depths.
  induction depth using Nat.strongRecOn generalizing type restriction with
  | ind depth ih =>
    have deep : depth ≠ 0 := by
      have := restriction.levels_pos
      omega
    cases restriction with
    | missing => exact (nodes _ (.head _)).elim
    | comparison comparator path value =>
      obtain ⟨route, walked, single⟩ := nodes _ (.head _)
      refine ⟨_, by rw [Schema.encodeNode, encodeLeaf_eq_ok walked], ?_⟩
      rw [node.eq_def]
      simp only [deep, ↓reduceIte, Schema.ofName?_name, key_eq_ok identified member walked single]
      rfl
    | isNull path =>
      obtain ⟨route, walked, single⟩ := nodes _ (.head _)
      refine ⟨_, by rw [Schema.encodeNode, encodeLeaf_eq_ok walked], ?_⟩
      rw [node.eq_def]
      simp only [deep, ↓reduceIte, Schema.ofName?_name, key_eq_ok identified member walked single]
      rfl
    | inValues path values =>
      obtain ⟨⟨route, walked, single⟩, filled⟩ := nodes _ (.head _)
      refine ⟨_, by rw [Schema.encodeNode, encodeLeaf_eq_ok walked], ?_⟩
      rw [node.eq_def]
      cases values with
      | nil => exact absurd rfl filled
      | cons value values =>
        have decoded := values_map_value Operator.isIn.name (value :: values)
        rw [List.map_cons] at decoded
        simp only [deep, ↓reduceIte, Schema.ofName?_name, key_eq_ok identified member walked single,
          List.map_cons, decoded, bind, Except.bind]
        rfl
    | inQuery path query =>
      obtain ⟨route, walked, single, like, nested⟩ := nodes _ (.head _)
      obtain ⟨grounded, within⟩ := List.forall_mem_cons.mp queries
      rw [Restriction.levels] at levels
      refine encodeInQuery_decodes identified member walked single like deep ?_
      rw [← nested]
      refine encode_decodes_of_grounded decoder (depth - 2) identified grounded ?_
      intro restriction given
      exact ih (depth - 2) (by omega) grounded.mem_types
        (grounded.consistent.restriction restriction given)
        (fun query inside => within query (Criteria.mem_subqueries_iff.mpr ⟨restriction, given, inside⟩))
        (Nat.le_trans (Criteria.levels_restriction_le given) (by omega))
    | junction connective children =>
      obtain ⟨two, nodes⟩ := List.forall_mem_cons.mp nodes
      rw [Restriction.levels] at levels
      refine encodeJunction_decodes connective deep two ?_
      intro child inside
      have within : Restriction.levelsAll children ≤ depth - 1 := by omega
      exact ih (depth - 1) (by omega) member
        (fun node own => nodes node (Restriction.mem_nodesAll_iff.mpr ⟨child, inside, own⟩))
        (fun query own => queries query (Restriction.mem_subqueriesAll_iff.mpr ⟨child, inside, own⟩))
        (Restriction.levelsAll_le_iff.mp within child inside)
    | not child =>
      rw [Restriction.levels] at levels
      exact encodeNot_decodes deep (ih (depth - 1) (by omega) member
        (List.forall_mem_cons.mp nodes).2 queries (by omega))

/-- A restriction that makes sense is what its node says. -/
theorem encodeNode_decodes {packages : Packages} {restriction : Restriction}
    (identified : decoder.schema.Identified)
    (member : type ∈ decoder.schema.types)
    (admitted : decoder.schema.Admits packages type restriction)
    (levels : restriction.levels ≤ depth) :
    ∃ node, decoder.schema.encodeNode type restriction = .ok node ∧
      decoder.node type depth node = .ok restriction :=
  have nodes := Schema.lawfulNode_of_admits restriction admitted
  have accepted := Schema.accepts_of_admits restriction admitted
  encodeNode_decodes_of_grounded identified member nodes
    (fun query inside => Schema.grounded_of_accepts (accepted query inside)) levels

end Decoder

/-- Whatever a query text compiles to has a document, and the document decodes to just that query
again, in a schema that was built, at the same depth and with any packages. -/
theorem decode_encode_of_compile (declared : List RecordType) (schema : Schema)
    (built : Schema.build declared = .ok schema) (packages : Packages) (operators : Text)
    (maxDepth : Nat) (text : Text) (criteria : Criteria)
    (compiled : (⟨schema, packages, operators, maxDepth⟩ : Compiler).compile text = .ok criteria) :
    ∃ document, schema.encode criteria = .ok document ∧
      ∀ others : Packages, (⟨schema, others, maxDepth⟩ : Decoder).decode document = .ok criteria := by
  have identified := Schema.identified_of_build built
  obtain ⟨accepted, top, levels⟩ := Compiler.accepts_of_compile compiled
  have decodes : ∀ others : Packages, ∃ document, schema.encode criteria = .ok document ∧
      (⟨schema, others, maxDepth⟩ : Decoder).decode document = .ok criteria := by
    intro others
    have back := Decoder.encode_decodes ⟨schema, others, maxDepth⟩ maxDepth identified
      (fun _ _ => Decoder.encodeNode_decodes identified) accepted levels
    rwa [top] at back
  obtain ⟨document, encoded, -⟩ := decodes packages
  refine ⟨document, encoded, ?_⟩
  intro others
  obtain ⟨again, same, decoded⟩ := decodes others
  cases encoded.symm.trans same
  exact decoded

/-- Pigeons have a name, and mates among themselves. -/
def pigeonType : RecordType :=
  { id := "t1", name := "acme.Pigeon", label := "Pigeon", table := "pigeon", defaultField := "name"
    fields := [{ id := "f1", name := "id", label := "Id", column := "id", kind := .id },
      { id := "f2", name := "name", label := "Name", column := "name", kind := .text },
      { id := "f3", name := "mate", label := "Mate", column := "mate", kind := .reference,
        target := "acme.Pigeon" }] }

def pigeonText : Text :=
  Text.ofString "SELECT name, COUNT(*) FROM Pigeon WHERE NOT (mate.name = 'x' OR mate IN " ++
    Text.ofString "(SELECT id FROM Pigeon WHERE name ISNULL LIMIT 3)) GROUP BY name, name " ++
    Text.ofString "ORDER BY mate.name DESC OFFSET 7"

theorem pigeons_decode_encode : ∃ criteria document,
    (⟨⟨[pigeonType]⟩, ⟨"acme", []⟩, [], 32⟩ : Compiler).compile pigeonText = .ok criteria ∧
      Schema.encode ⟨[pigeonType]⟩ criteria = .ok document ∧
      (⟨⟨[pigeonType]⟩, ⟨[], "other"⟩, 32⟩ : Decoder).decode document = .ok criteria := by
  have compiles :
      ((⟨⟨[pigeonType]⟩, ⟨"acme", []⟩, [], 32⟩ : Compiler).compile pigeonText).toBool = true := by
    decide +kernel
  obtain ⟨criteria, compiled⟩ := exists_ok_of_toBool compiles
  obtain ⟨document, encoded, decodes⟩ :=
    decode_encode_of_compile [pigeonType] ⟨[pigeonType]⟩ rfl _ _ _ _ _ compiled
  exact ⟨criteria, document, compiled, encoded, decodes _⟩

end RecordQuery
