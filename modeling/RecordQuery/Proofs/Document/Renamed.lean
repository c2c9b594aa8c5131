import Mathlib.Data.List.Nodup
import RecordQuery.Proofs.Criteria.Lawful
import RecordQuery.Proofs.Document.Abridged
import RecordQuery.Proofs.Schema.Renaming

/-! Documents outlive the names they were made with. By its ids alone, the document of a query can be read
in a schema that has renamed types and fields, and is the same query in the new names there. -/
namespace RecordQuery

mutual

def Restriction.renamed (schema other : Schema) (type : RecordType) : Restriction → Restriction
  | .missing => .missing
  | .comparison comparator path value => .comparison comparator (schema.renamedPath other type path) value
  | .isNull path => .isNull (schema.renamedPath other type path)
  | .inValues path values => .inValues (schema.renamedPath other type path) values
  | .inQuery path query => .inQuery (schema.renamedPath other type path) (query.renamed schema other)
  | .junction connective children =>
    .junction connective (Restriction.renamedAll schema other type children)
  | .not child => .not (child.renamed schema other type)

def Restriction.renamedAll (schema other : Schema) (type : RecordType) : List Restriction → List Restriction
  | [] => []
  | child :: children =>
    child.renamed schema other type :: Restriction.renamedAll schema other type children

/-- The query in the names of the other schema, with the aliases that the new paths need. -/
def Criteria.renamed (schema other : Schema) : Criteria → Criteria
  | ⟨type, properties, aggregates, none, groupBy, orderBy, limit, offset, _, isSubquery⟩ =>
    Criteria.withAliases ⟨other.counterpart type, properties.map (schema.renamedPath other type),
      aggregates.map fun call => ⟨call.function, schema.renamedPath other type call.property⟩, none,
      groupBy.map (schema.renamedPath other type),
      orderBy.map fun key => ⟨schema.renamedPath other type key.property, key.direction⟩,
      limit, offset, [], isSubquery⟩
  | ⟨type, properties, aggregates, some restriction, groupBy, orderBy, limit, offset, _, isSubquery⟩ =>
    Criteria.withAliases ⟨other.counterpart type, properties.map (schema.renamedPath other type),
      aggregates.map fun call => ⟨call.function, schema.renamedPath other type call.property⟩,
      some (restriction.renamed schema other type), groupBy.map (schema.renamedPath other type),
      orderBy.map fun key => ⟨schema.renamedPath other type key.property, key.direction⟩,
      limit, offset, [], isSubquery⟩

end

variable {schema other : Schema} {packages : Packages}

theorem Criteria.renamed_eq (criteria : Criteria) : criteria.renamed schema other =
    Criteria.withAliases ⟨other.counterpart criteria.type,
      criteria.properties.map (schema.renamedPath other criteria.type),
      criteria.aggregates.map fun call => ⟨call.function,
        schema.renamedPath other criteria.type call.property⟩,
      criteria.restriction.map (·.renamed schema other criteria.type),
      criteria.groupBy.map (schema.renamedPath other criteria.type),
      criteria.orderBy.map fun key => ⟨schema.renamedPath other criteria.type key.property, key.direction⟩,
      criteria.limit, criteria.offset, [], criteria.isSubquery⟩ := by
  obtain ⟨_, _, _, restriction, _, _, _, _, _, _⟩ := criteria
  cases restriction <;> rfl

section Fields

variable (criteria : Criteria)

@[simp] theorem Criteria.renamed_type :
    (criteria.renamed schema other).type = other.counterpart criteria.type := by
  rw [renamed_eq, withAliases]

@[simp] theorem Criteria.renamed_properties : (criteria.renamed schema other).properties =
    criteria.properties.map (schema.renamedPath other criteria.type) := by
  rw [renamed_eq, withAliases]

@[simp] theorem Criteria.renamed_aggregates : (criteria.renamed schema other).aggregates =
    criteria.aggregates.map fun call =>
      ⟨call.function, schema.renamedPath other criteria.type call.property⟩ := by
  rw [renamed_eq, withAliases]

@[simp] theorem Criteria.renamed_groupBy : (criteria.renamed schema other).groupBy =
    criteria.groupBy.map (schema.renamedPath other criteria.type) := by
  rw [renamed_eq, withAliases]

@[simp] theorem Criteria.renamed_orderBy : (criteria.renamed schema other).orderBy =
    criteria.orderBy.map fun key =>
      ⟨schema.renamedPath other criteria.type key.property, key.direction⟩ := by
  rw [renamed_eq, withAliases]

@[simp] theorem Criteria.renamed_limit : (criteria.renamed schema other).limit = criteria.limit := by
  rw [renamed_eq, withAliases]

@[simp] theorem Criteria.renamed_offset : (criteria.renamed schema other).offset = criteria.offset := by
  rw [renamed_eq, withAliases]

@[simp] theorem Criteria.renamed_isSubquery :
    (criteria.renamed schema other).isSubquery = criteria.isSubquery := by
  rw [renamed_eq, withAliases]

theorem Criteria.renamed_aliases : (criteria.renamed schema other).aliases =
    Aliases.ofPaths (criteria.renamed schema other).paths := by
  rw [renamed_eq]
  rfl

end Fields

section Levels

theorem Restriction.isJunction_renamed (restriction : Restriction) :
    (restriction.renamed schema other type).isJunction = restriction.isJunction := by
  cases restriction <;> rfl

mutual

theorem Restriction.levels_renamed : (restriction : Restriction) → {type : RecordType} →
    (restriction.renamed schema other type).levels = restriction.levels
  | .missing, _ => rfl
  | .comparison _ _ _, _ => rfl
  | .isNull _, _ => rfl
  | .inValues _ _, _ => rfl
  | .inQuery _ query, _ => by
    rw [Restriction.renamed, Restriction.levels, Restriction.levels, query.levels_renamed]
  | .junction _ children, _ => by
    rw [Restriction.renamed, Restriction.levels, Restriction.levels,
      Restriction.levelsAll_renamed children]
  | .not child, _ => by
    rw [Restriction.renamed, Restriction.levels, Restriction.levels, child.levels_renamed]

theorem Restriction.levelsAll_renamed : (children : List Restriction) → {type : RecordType} →
    Restriction.levelsAll (Restriction.renamedAll schema other type children) =
      Restriction.levelsAll children
  | [], _ => rfl
  | child :: children, _ => by
    rw [Restriction.renamedAll, Restriction.levelsAll, Restriction.levelsAll, child.levels_renamed,
      Restriction.levelsAll_renamed children]

theorem Criteria.levels_renamed : (criteria : Criteria) →
    (criteria.renamed schema other).levels = criteria.levels
  | ⟨_, _, _, none, _, _, _, _, _, _⟩ => rfl
  | ⟨type, _, _, some restriction, _, _, _, _, _, _⟩ => by
    rw [Criteria.renamed, Criteria.withAliases, Criteria.levels, Criteria.levels,
      restriction.isJunction_renamed, restriction.levels_renamed]

end

end Levels

namespace Schema

section Accepts

variable {type : RecordType} (renames : schema.Renames other) (addressed : other.Addressed)
  (member : type ∈ schema.types)

include renames addressed member

theorem hasValue_renamed (value : schema.HasValue type path) :
    other.HasValue (other.counterpart type) (schema.renamedPath other type path) := by
  obtain ⟨route, walked, single⟩ := value
  obtain ⟨changed, walks, same⟩ := renames.walk addressed member walked
  exact ⟨changed, walks, by rw [same.leaf, single]⟩

theorem hasKey_renamed (key : schema.HasKey type path) :
    other.HasKey (other.counterpart type) (schema.renamedPath other type path) := by
  obtain ⟨route, walked, single⟩ := key
  obtain ⟨changed, walks, same⟩ := renames.walk addressed member walked
  exact ⟨changed, walks, by rw [same.leaf, single]⟩

theorem hasAggregate_renamed {call : AggregateCall} (lawful : schema.HasAggregate type overCollection call) :
    other.HasAggregate (other.counterpart type) overCollection
      ⟨call.function, schema.renamedPath other type call.property⟩ := by
  obtain ⟨named, route, walked, single, checked, collection⟩ := lawful
  obtain ⟨changed, walks, same⟩ := renames.walk addressed member walked
  refine ⟨named, changed, walks, by rw [same.leaf, single], ?_, by rw [same.isCollection, collection]⟩
  rw [checkAggregate_eq_ok_iff] at checked ⊢
  rwa [same.leaf]

theorem nodup_renamed {paths : List Text} (identified : schema.Identified)
    (each : ∀ path ∈ paths, ∃ route, schema.walk type path = .ok route) (distinct : paths.Nodup) :
    (paths.map (schema.renamedPath other type)).Nodup := by
  apply List.Nodup.map_on _ distinct
  intro path listed path' listed' same
  obtain ⟨route, walked⟩ := each path listed
  obtain ⟨route', walked'⟩ := each path' listed'
  exact renames.eq_of_renamedPath addressed identified member walked walked' same

end Accepts

theorem Frames.renamed {criteria : Criteria} (renames : schema.Renames other) (addressed : other.Addressed)
    (identified : schema.Identified) (frames : schema.Frames packages criteria) :
    other.Frames packages (criteria.renamed schema other) := by
  have member := frames.mem_types
  obtain ⟨overCollection, calls⟩ := frames.aggregates
  constructor
  case known =>
    rw [Criteria.renamed_type]
    exact resolve?_of_typeNamed? (addressed.typeNamed? (renames.mem_types addressed member))
  case selects => simpa using frames.selects
  case properties =>
    rw [Criteria.renamed_properties, Criteria.renamed_type, List.forall_mem_map]
    intro path listed
    exact hasValue_renamed renames addressed member (frames.properties path listed)
  case distinct =>
    rw [Criteria.renamed_properties]
    apply nodup_renamed renames addressed member identified _ frames.distinct
    intro path listed
    obtain ⟨route, walked, -⟩ := frames.properties path listed
    exact ⟨route, walked⟩
  case aggregates =>
    refine ⟨overCollection, ?_⟩
    rw [Criteria.renamed_aggregates, Criteria.renamed_type, List.forall_mem_map]
    intro call listed
    exact hasAggregate_renamed renames addressed member (calls call listed)
  case grouped =>
    have grouped := Criteria.checkGrouping_eq_ok_iff.mp frames.grouped
    apply Criteria.checkGrouping_eq_ok_iff.mpr
    intro aggregation
    have groups := grouped (by simpa using aggregation)
    rw [Criteria.renamed_properties, Criteria.renamed_groupBy, List.forall_mem_map]
    intro path listed
    exact List.mem_map_of_mem (groups path listed)
  case groupBy =>
    rw [Criteria.renamed_groupBy, Criteria.renamed_type, List.forall_mem_map]
    intro path listed
    exact hasKey_renamed renames addressed member (frames.groupBy path listed)
  case distinctKeys =>
    rw [Criteria.renamed_groupBy]
    apply nodup_renamed renames addressed member identified _ frames.distinctKeys
    intro path listed
    obtain ⟨route, walked, -⟩ := frames.groupBy path listed
    exact ⟨route, walked⟩
  case orderBy =>
    rw [Criteria.renamed_orderBy, Criteria.renamed_type, List.forall_mem_map]
    intro key listed
    exact hasKey_renamed renames addressed member (frames.orderBy key listed)
  case limit => simpa using frames.limit
  case offset => simpa using frames.offset
  case aliases => exact criteria.renamed_aliases

theorem selectsLike_renamed {query : Criteria} (renames : schema.Renames other) (addressed : other.Addressed)
    (member : query.type ∈ schema.types) (same : changed.kind = field.kind)
    (selects : schema.SelectsLike field query) :
    other.SelectsLike changed (query.renamed schema other) := by
  obtain ⟨column, route, only, noCalls, walked, plain, kinds⟩ := selects
  obtain ⟨changed, walks, like⟩ := renames.walk addressed member walked
  rw [← query.renamed_type] at walks
  exact ⟨_, changed, by simp [only], by simp [noCalls], walks, by rwa [like.leaf], by rw [like.leaf, same, kinds]⟩

mutual

theorem admits_renamed (renames : schema.Renames other) (addressed : other.Addressed)
    (identified : schema.Identified) : (restriction : Restriction) → {type : RecordType} →
    type ∈ schema.types → schema.Admits packages type restriction →
    other.Admits packages (other.counterpart type) (restriction.renamed schema other type)
  | .missing, _, _, admitted => admitted.elim
  | .comparison _ _ _, _, member, admitted => hasKey_renamed renames addressed member admitted
  | .isNull _, _, member, admitted => hasKey_renamed renames addressed member admitted
  | .inValues _ _, _, member, admitted =>
    ⟨hasKey_renamed renames addressed member admitted.1, admitted.2⟩
  | .inQuery path query, _, member, ⟨⟨route, walked, single, checked⟩, nested, accepted⟩ => by
    obtain ⟨changed, walks, same⟩ := renames.walk addressed member walked
    have known := (accepts_iff.mp accepted).1.mem_types
    refine ⟨⟨changed, walks, by rw [same.leaf, single], ?_⟩, ?_,
      accepts_renamed renames addressed identified query accepted⟩
    · exact checkSubquery_eq_ok_iff.mpr
        (selectsLike_renamed renames addressed known same.leaf (checkSubquery_eq_ok_iff.mp checked))
    · rwa [query.renamed_isSubquery]
  | .junction _ children, _, member, ⟨two, admitted⟩ => by
    obtain ⟨length, each⟩ := admitsAll_renamed renames addressed identified children member admitted
    exact ⟨length ▸ two, each⟩
  | .not child, _, member, admitted => by
    rw [Admits] at admitted
    rw [Restriction.renamed, Admits]
    exact admits_renamed renames addressed identified child member admitted

theorem admitsAll_renamed (renames : schema.Renames other) (addressed : other.Addressed)
    (identified : schema.Identified) : (children : List Restriction) → {type : RecordType} →
    type ∈ schema.types → schema.AdmitsAll packages type children →
    (Restriction.renamedAll schema other type children).length = children.length ∧
      other.AdmitsAll packages (other.counterpart type) (Restriction.renamedAll schema other type children)
  | [], _, _, _ => ⟨rfl, trivial⟩
  | child :: children, _, member, ⟨first, rest⟩ => by
    obtain ⟨length, each⟩ := admitsAll_renamed renames addressed identified children member rest
    exact ⟨congrArg Nat.succ length,
      admits_renamed renames addressed identified child member first, each⟩

theorem accepts_renamed (renames : schema.Renames other) (addressed : other.Addressed)
    (identified : schema.Identified) : (criteria : Criteria) → schema.Accepts packages criteria →
    other.Accepts packages (criteria.renamed schema other)
  | ⟨_, _, _, none, _, _, _, _, _, _⟩, accepted => Frames.renamed renames addressed identified accepted
  | ⟨_, _, _, some restriction, _, _, _, _, _, _⟩, ⟨frames, admitted⟩ =>
    ⟨frames.renamed renames addressed identified,
      admits_renamed renames addressed identified restriction frames.mem_types admitted⟩

end

section Encode

variable (renames : schema.Renames other) (addressed : other.Addressed)

include renames addressed

theorem abridges_ref (member : type ∈ schema.types) (walked : schema.walk type path = .ok route)
    (walked' : other.walk (other.counterpart type) (schema.renamedPath other type path) = .ok route') :
    (⟨route.ids, []⟩ : PropertyRef).Abridges ⟨route'.ids, schema.renamedPath other type path⟩ := by
  obtain ⟨changed, walks, same⟩ := renames.walk addressed member walked
  cases walks.symm.trans walked'
  rw [← same.ids]
  exact .idOnly

theorem abridges_leaf (values : List Value) (member : type ∈ schema.types)
    (encoded : schema.encodeLeaf type operator path (values.map .value) = .ok node)
    (encoded' : other.encodeLeaf (other.counterpart type) operator (schema.renamedPath other type path)
      (values.map .value) = .ok node') : node.withoutNames.Abridges node' := by
  obtain ⟨route, walked, rfl⟩ := walk_of_referred encoded
  obtain ⟨route', walked', rfl⟩ := walk_of_referred encoded'
  exact .mk (abridges_ref renames addressed member walked walked')
    (Argument.abridgesAll_withoutNamesAll _)

/-- The parts of a document that are not restrictions. -/
theorem abridges_of_encodes {criteria : Criteria} {nodes nodes' : List DocumentNode}
    {document document' : Document} (member : criteria.type ∈ schema.types)
    (encodes : schema.Encodes criteria nodes document)
    (encodes' : other.Encodes (criteria.renamed schema other) nodes' document')
    (restrictions : DocumentNode.AbridgesAll (DocumentNode.withoutNamesAll nodes) nodes') :
    document.withoutNames.Abridges document' := by
  obtain ⟨select, group, order, same⟩ := encodes
  obtain ⟨select', group', order', same'⟩ := encodes'
  simp only [Criteria.renamed_type, Criteria.renamed_properties, Criteria.renamed_aggregates,
    Criteria.renamed_groupBy, Criteria.renamed_orderBy, Criteria.renamed_limit,
    Criteria.renamed_offset] at select' group' order' same'
  obtain ⟨changed, known, kept, -⟩ := renames criteria.type member
  have base : criteria.type.id = (other.counterpart criteria.type).id := by
    rw [addressed.identified.counterpart_eq known kept, kept]
  rw [same, same', Document.withoutNames, base]
  refine .mk .idOnly ?_ ?_ restrictions ?_
  · rw [encodeSelect_eq] at select select'
    have columns : columns (criteria.properties.map (schema.renamedPath other criteria.type))
        (criteria.aggregates.map fun call =>
          ⟨call.function, schema.renamedPath other criteria.type call.property⟩) =
        (columns criteria.properties criteria.aggregates).map
          (Prod.map (schema.renamedPath other criteria.type) id) := by
      simp [columns, Function.comp_def]
    rw [columns] at select'
    apply forall₂_of_mapM select select'
    rintro ⟨path, function⟩ - property property' chosen chosen'
    obtain ⟨route, walked, rfl⟩ := walk_of_select chosen
    obtain ⟨route', walked', rfl⟩ := walk_of_select chosen'
    exact ⟨abridges_ref renames addressed member walked walked', rfl⟩
  · apply forall₂_of_mapM group group'
    intro path _ ref ref' referred referred'
    obtain ⟨route, walked, rfl⟩ := walk_of_referred referred
    obtain ⟨route', walked', rfl⟩ := walk_of_referred referred'
    exact abridges_ref renames addressed member walked walked'
  · apply forall₂_of_mapM order order'
    intro key _ ordering ordering' made made'
    obtain ⟨route, walked, rfl⟩ := walk_of_referred made
    obtain ⟨route', walked', rfl⟩ := walk_of_referred made'
    exact ⟨abridges_ref renames addressed member walked walked', rfl⟩

end Encode

mutual

theorem abridges_of_encodeNode (renames : schema.Renames other) (addressed : other.Addressed) :
    (restriction : Restriction) → {type : RecordType} → {node node' : DocumentNode} →
    type ∈ schema.types → schema.Admits packages type restriction →
    schema.encodeNode type restriction = .ok node →
    other.encodeNode (other.counterpart type) (restriction.renamed schema other type) = .ok node' →
    node.withoutNames.Abridges node'
  | .missing, _, _, _, _, admitted, _, _ => admitted.elim
  | .comparison _ _ value, _, _, _, member, _, encoded, encoded' =>
    abridges_leaf renames addressed [value] member encoded encoded'
  | .isNull _, _, _, _, member, _, encoded, encoded' =>
    abridges_leaf renames addressed [] member encoded encoded'
  | .inValues _ values, _, _, _, member, _, encoded, encoded' =>
    abridges_leaf renames addressed values member encoded encoded'
  | .inQuery path query, _, _, _, member, admitted, encoded, encoded' => by
    obtain ⟨route, document, walked, nested, rfl⟩ := encodeNode_inQuery encoded
    obtain ⟨route', document', walked', nested', rfl⟩ := encodeNode_inQuery encoded'
    have inner := abridges_of_encode renames addressed query admitted.2.2 nested nested'
    exact .mk (abridges_ref renames addressed member walked walked') (.subquery inner .nil)
  | .junction _ children, _, _, _, member, admitted, encoded, encoded' => by
    obtain ⟨args, nested, rfl⟩ := encodeNode_junction encoded
    obtain ⟨args', nested', rfl⟩ := encodeNode_junction encoded'
    exact .mk .idOnly (abridges_of_encodeNodes renames addressed children member admitted.2 nested nested')
  | .not child, _, _, _, member, admitted, encoded, encoded' => by
    obtain ⟨inner, nested, rfl⟩ := encodeNode_not encoded
    obtain ⟨inner', nested', rfl⟩ := encodeNode_not encoded'
    rw [Admits] at admitted
    exact .mk .idOnly
      (.restriction (abridges_of_encodeNode renames addressed child member admitted nested nested') .nil)

theorem abridges_of_encodeNodes (renames : schema.Renames other) (addressed : other.Addressed) :
    (children : List Restriction) → {type : RecordType} → {args args' : List Argument} →
    type ∈ schema.types → schema.AdmitsAll packages type children →
    schema.encodeNodes type children = .ok args →
    other.encodeNodes (other.counterpart type) (Restriction.renamedAll schema other type children) =
      .ok args' →
    Argument.AbridgesAll (Argument.withoutNamesAll args) args'
  | [], _, _, _, _, _, encoded, encoded' => by
    rw [encodeNodes] at encoded
    rw [Restriction.renamedAll, encodeNodes] at encoded'
    cases encoded
    cases encoded'
    exact .nil
  | child :: children, _, _, _, member, admitted, encoded, encoded' => by
    obtain ⟨node, args, first, rest, rfl⟩ := encodeNodes_cons encoded
    obtain ⟨node', args', first', rest', rfl⟩ := encodeNodes_cons encoded'
    exact .restriction (abridges_of_encodeNode renames addressed child member admitted.1 first first')
      (abridges_of_encodeNodes renames addressed children member admitted.2 rest rest')

/-- By its ids alone, the document of a query is the one of the renamed query. -/
theorem abridges_of_encode (renames : schema.Renames other) (addressed : other.Addressed) :
    (criteria : Criteria) → {document document' : Document} → schema.Accepts packages criteria →
    schema.encode criteria = .ok document →
    other.encode (criteria.renamed schema other) = .ok document' →
    document.withoutNames.Abridges document'
  | ⟨_, _, _, none, _, _, _, _, _, _⟩, _, _, accepted, encoded, encoded' =>
    abridges_of_encodes renames addressed (Frames.mem_types accepted) (encodes_of_none encoded rfl)
      (encodes_of_none encoded' rfl) .nil
  | ⟨type, _, _, some restriction, _, _, _, _, _, _⟩, _, _, ⟨frames, admitted⟩, encoded, encoded' => by
    obtain ⟨node, nested, encodes⟩ := encodes_of_some encoded rfl
    obtain ⟨node', nested', encodes'⟩ := encodes_of_some encoded' rfl
    have first := abridges_of_encodeNode renames addressed restriction frames.mem_types admitted nested nested'
    exact abridges_of_encodes renames addressed frames.mem_types encodes encodes' (.cons first .nil)

end

end Schema

/-- Whatever a query text compiles to has a document. Without its names, the document decodes in a schema
with other names to the query in those names, at the same depth and with any packages. -/
theorem decode_withoutNames_of_renames (declared declared' : List RecordType) (schema other : Schema)
    (built : Schema.build declared = .ok schema) (rebuilt : Schema.build declared' = .ok other)
    (renames : schema.Renames other) (packages : Packages) (operators : Text) (maxDepth : Nat)
    (text : Text) (criteria : Criteria)
    (compiled : (⟨schema, packages, operators, maxDepth⟩ : Compiler).compile text = .ok criteria) :
    ∃ document, schema.encode criteria = .ok document ∧
      ∀ others : Packages, (⟨other, others, maxDepth⟩ : Decoder).decode document.withoutNames =
        .ok (criteria.renamed schema other) := by
  have addressed := Schema.addressed_of_build rebuilt
  have source := Schema.addressed_of_build built
  obtain ⟨accepted, top, levels⟩ := Compiler.accepts_of_compile compiled
  obtain ⟨document, encoded, -⟩ := Decoder.decode_of_accepts source accepted top levels
  have renamed := Schema.accepts_renamed renames addressed source.identified criteria accepted
  obtain ⟨document', encoded', decodes⟩ := Decoder.decode_of_accepts addressed renamed
    (criteria.renamed_isSubquery.trans top) (Nat.le_trans (Nat.le_of_eq criteria.levels_renamed) levels)
  refine ⟨document, encoded, ?_⟩
  intro others
  exact decodes others _ (Schema.abridges_of_encode renames addressed criteria accepted encoded encoded')

/-- Pigeons under another name, with other names for theirs and for mates. -/
def renamedPigeonType : RecordType :=
  { id := "t1", name := "acme.Dove", label := "Dove", table := "pigeon", defaultField := "title"
    fields := [{ id := "f1", name := "id", label := "Id", column := "id", kind := .id },
      { id := "f2", name := "title", label := "Title", column := "name", kind := .text },
      { id := "f3", name := "partner", label := "Partner", column := "mate", kind := .reference,
        target := "acme.Dove" }] }

theorem doves_renames : Schema.Renames ⟨[pigeonType]⟩ ⟨[renamedPigeonType]⟩ := by
  intro type member
  obtain rfl := List.mem_singleton.mp member
  refine ⟨renamedPigeonType, .head _, rfl, ?_⟩
  simp only [pigeonType, List.forall_mem_cons]
  refine ⟨⟨_, .head _, rfl, rfl, nofun⟩, ⟨_, .tail _ (.head _), rfl, rfl, nofun⟩,
    ⟨_, .tail _ (.tail _ (.head _)), rfl, rfl, ?_⟩, List.forall_mem_nil _⟩
  intro _ target known _
  obtain rfl := List.mem_singleton.mp known
  exact ⟨renamedPigeonType, .head _, rfl, rfl⟩

theorem doves_decode_withoutNames : ∃ criteria document,
    (⟨⟨[pigeonType]⟩, ⟨"acme", []⟩, [], 32⟩ : Compiler).compile pigeonText = .ok criteria ∧
      Schema.encode ⟨[pigeonType]⟩ criteria = .ok document ∧
      (⟨⟨[renamedPigeonType]⟩, ⟨[], []⟩, 32⟩ : Decoder).decode document.withoutNames =
        .ok (criteria.renamed ⟨[pigeonType]⟩ ⟨[renamedPigeonType]⟩) ∧
      (criteria.renamed ⟨[pigeonType]⟩ ⟨[renamedPigeonType]⟩).orderBy = [⟨"partner.title", .desc⟩] := by
  have compiles : ((⟨⟨[pigeonType]⟩, ⟨"acme", []⟩, [], 32⟩ : Compiler).compile pigeonText).toOption.any
      (fun criteria => (criteria.renamed ⟨[pigeonType]⟩ ⟨[renamedPigeonType]⟩).orderBy =
        [⟨"partner.title", .desc⟩]) = true := by
    decide +kernel
  obtain ⟨criteria, found, sorted⟩ := (Option.any_eq_true _ _).mp compiles
  have compiled := toOption_eq_some.mp found
  obtain ⟨document, encoded, decodes⟩ := decode_withoutNames_of_renames [pigeonType] [renamedPigeonType]
    ⟨[pigeonType]⟩ ⟨[renamedPigeonType]⟩ rfl rfl doves_renames _ _ _ _ _ compiled
  exact ⟨criteria, document, compiled, encoded, decodes _, of_decide_eq_true sorted⟩

end RecordQuery
