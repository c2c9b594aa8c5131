import RecordQuery.Proofs.Document.Carried
import RecordQuery.Proofs.Document.Nesting
import RecordQuery.Proofs.Document.Reread

/-! The way of a query through the text of its document: encoded, written, read and decoded again. Ids
are joined by dots in the text, so a query gets through if none of the ids that it uses has one. -/
namespace RecordQuery

/-- No id has a dot. -/
def PropertyId.Undotted (id : PropertyId) : Prop := ∀ segment ∈ id, Text.ascii '.' ∉ segment

theorem PropertyId.text_ne_nil {id : PropertyId} (segmented : id ≠ []) (filled : ∀ segment ∈ id, segment ≠ []) :
    id.text ≠ [] := by
  obtain ⟨segment, segments, rfl⟩ := List.exists_cons_of_ne_nil segmented
  have first := filled segment (.head _)
  cases segments with
  | nil => simpa [text, Text.join] using first
  | cons next segments => simp [text, Text.join, List.intercalate_cons_cons, first]

theorem PropertyId.undotted_of_parse {id : PropertyId} (parsed : parse t = .ok id) (filled : t ≠ []) :
    id.Undotted ∧ id ≠ [] := by
  rw [parse, if_neg (by simpa using filled)] at parsed
  simp only at parsed
  split at parsed
  · cases parsed
  · cases parsed
    exact ⟨not_mem_of_mem_splitOn _ t, List.cons_ne_nil _ _⟩

namespace Decoder

variable {decoder : Decoder} {type : RecordType} {path : Text} {route : Route}

/-- The reference is resolved again after it was written and read. -/
def RefSurvives (decoder : Decoder) (type : RecordType) (ref : PropertyRef) : Prop :=
  ∃ again found, ref.reread = .ok again ∧ decoder.resolve type again = .ok found

def NodeSurvives (decoder : Decoder) (type : RecordType) (depth : Nat) (source : DocumentNode) : Prop :=
  ∃ again result, source.reread = .ok again ∧ decoder.node type depth again = .ok result

def ArgsSurvive (decoder : Decoder) (type : RecordType) (depth : Nat) (written : Text)
    (args : List Argument) : Prop :=
  ∃ again result, Argument.rereadAll args = .ok again ∧ decoder.children type depth written again = .ok result

/-- The document is decoded, to whatever, after it was written and read. -/
def Survives (decoder : Decoder) (depth : Nat) (isSubquery : Bool) (source : Document) : Prop :=
  ∃ again result, source.reread = .ok again ∧ decoder.document depth isSubquery again = .ok result

section Refer

theorem walkIds_of_resolve (filled : ref.id ≠ []) (named : ref.name ≠ [])
    (resolved : decoder.resolve type ref = .ok (path, route)) :
    path = ref.name ∧ decoder.schema.walkIds type ref.id = .ok (path, route) := by
  rw [resolve, if_pos (by simpa using filled)] at resolved
  obtain ⟨⟨found, steps⟩, walked, checked⟩ := bind_eq_ok.mp resolved
  obtain ⟨agrees, same⟩ := guard_eq_ok.mp checked
  obtain ⟨rfl, rfl⟩ := Prod.mk.inj (pure_eq_ok.mp same)
  have agree : ref.name = found := by simpa [named] using agrees
  exact ⟨agree.symm, mapError_eq_ok.mp walked⟩

variable (built : Schema.build declared = .ok decoder.schema) (member : type ∈ decoder.schema.types)

include built member

/-- A path is found again by the ids that are read for it only if none of its ids has a dot. -/
theorem RefSurvives.undotted (walked : decoder.schema.walk type path = .ok route)
    (survives : decoder.RefSurvives type ⟨route.ids, path⟩) :
    decoder.schema.IdsAlong PropertyId.Undotted type path := by
  obtain ⟨ref, found, reread, resolved⟩ := survives
  have named := Schema.named_of_build built
  have filled := Schema.filledIds_of_build built
  obtain ⟨id, parsed, same⟩ := bind_eq_ok.mp reread
  obtain rfl := pure_eq_ok.mp same
  have text : PropertyId.text route.ids ≠ [] :=
    PropertyId.text_ne_nil (by simp [Route.ids, Route.steps]) (Schema.walk_ids_ne_nil filled member walked)
  obtain ⟨undotted, filled⟩ := PropertyId.undotted_of_parse (mapError_eq_ok.mp parsed) text
  -- The name beside the ids makes them lead the same way, so the ids that were read are those of the path.
  obtain ⟨rfl, byIds⟩ := walkIds_of_resolve filled (named.path_ne_nil member walked) resolved
  intro other again
  cases walked.symm.trans again
  cases walked.symm.trans (named.walk member byIds)
  rw [Schema.walkIds_ids byIds]
  exact undotted

theorem undotted_of_selected
    (encoded : decoder.schema.encodeSelect type properties aggregates = .ok columns)
    (reread : columns.mapM SelectedProperty.reread = .ok again)
    (decoded : again.mapM (decoder.selected type) = .ok chosen) :
    (∀ path ∈ properties, decoder.schema.IdsAlong PropertyId.Undotted type path) ∧
      ∀ call ∈ aggregates, decoder.schema.IdsAlong PropertyId.Undotted type call.property := by
  rw [Schema.encodeSelect_eq] at encoded
  have each : ∀ column ∈ Schema.columns properties aggregates,
      decoder.schema.IdsAlong PropertyId.Undotted type column.1 := by
    rintro ⟨path, function⟩ listed
    obtain ⟨code, other, result, select, carried, found⟩ := exists_of_mapM encoded reread decoded listed
    obtain ⟨route, walked, rfl⟩ := Schema.walk_of_select select
    obtain ⟨ref, reread, same⟩ := bind_eq_ok.mp carried
    obtain rfl := pure_eq_ok.mp same
    obtain ⟨_, resolved, -⟩ := bind_eq_ok.mp found
    exact RefSurvives.undotted built member walked ⟨_, _, reread, resolved⟩
  simpa only [Schema.columns, List.forall_mem_append, List.forall_mem_map] using each

theorem undotted_of_groupings (encoded : decoder.schema.encodeGroupings type groupBy = .ok groupings)
    (reread : groupings.mapM PropertyRef.reread = .ok again)
    (decoded : (again.mapM fun ref => do return (← decoder.key type ref).1) = .ok keys) :
    ∀ path ∈ groupBy, decoder.schema.IdsAlong PropertyId.Undotted type path := by
  intro path listed
  obtain ⟨code, other, result, refer, carried, found⟩ := exists_of_mapM encoded reread decoded listed
  obtain ⟨route, walked, rfl⟩ := Schema.walk_of_referred refer
  obtain ⟨_, keyed, -⟩ := bind_eq_ok.mp found
  obtain ⟨_, resolved, -⟩ := bind_eq_ok.mp keyed
  exact RefSurvives.undotted built member walked ⟨_, _, carried, resolved⟩

theorem undotted_of_orderings (encoded : decoder.schema.encodeOrderings type orderBy = .ok orderings)
    (reread : orderings.mapM DocumentOrdering.reread = .ok again)
    (decoded : again.mapM (decoder.sortKey type) = .ok keys) :
    ∀ key ∈ orderBy, decoder.schema.IdsAlong PropertyId.Undotted type key.property := by
  intro key listed
  obtain ⟨code, other, result, refer, carried, found⟩ := exists_of_mapM encoded reread decoded listed
  obtain ⟨route, walked, rfl⟩ := Schema.walk_of_referred refer
  obtain ⟨ref, reread, same⟩ := bind_eq_ok.mp carried
  obtain rfl := pure_eq_ok.mp same
  obtain ⟨_, keyed, -⟩ := bind_eq_ok.mp found
  obtain ⟨_, resolved, -⟩ := bind_eq_ok.mp keyed
  exact RefSurvives.undotted built member walked ⟨_, _, reread, resolved⟩

end Refer

section Nodes

theorem reread_node {written : Text} (reread : DocumentNode.reread ⟨written, ref, args⟩ = .ok source) :
    ∃ other more, ref.reread = .ok other ∧ Argument.rereadAll args = .ok more ∧
      source = ⟨written, other, more⟩ := by
  rw [DocumentNode.reread] at reread
  obtain ⟨other, first, reread⟩ := bind_eq_ok.mp reread
  obtain ⟨more, second, same⟩ := bind_eq_ok.mp reread
  exact ⟨other, more, first, second, (pure_eq_ok.mp same).symm⟩

/-- A node of an operator that nests no restrictions is decoded with its property. -/
theorem NodeSurvives.ref {written : Text} {ref : PropertyRef} {args : List Argument}
    (leaf : nests written = false)
    (survives : decoder.NodeSurvives type depth ⟨written, ref, args⟩) : decoder.RefSurvives type ref := by
  obtain ⟨_, result, reread, decoded⟩ := survives
  obtain ⟨other, more, referred, -, rfl⟩ := reread_node reread
  have keyed : ∃ found, decoder.key type other = .ok found := by
    rw [nests] at leaf
    rw [node.eq_def] at decoded
    simp only at decoded
    split at decoded
    · cases decoded
    split at decoded
    · cases decoded
    · rename_i known
      simp [known] at leaf
    · rename_i known
      simp [known] at leaf
    all_goals
      obtain ⟨found, keyed, -⟩ := bind_eq_ok.mp decoded
      exact ⟨found, keyed⟩
  obtain ⟨_, keyed⟩ := keyed
  obtain ⟨found, resolved, -⟩ := bind_eq_ok.mp keyed
  exact ⟨other, found, referred, resolved⟩

theorem NodeSurvives.args {written : Text} {ref : PropertyRef} {args : List Argument}
    (nested : nests written = true)
    (survives : decoder.NodeSurvives type depth ⟨written, ref, args⟩) :
    decoder.ArgsSurvive type (depth - 1) written args := by
  obtain ⟨_, result, reread, decoded⟩ := survives
  obtain ⟨other, more, -, carried, rfl⟩ := reread_node reread
  have inner : ∃ found, decoder.children type (depth - 1) written more = .ok found := by
    rw [nests] at nested
    rw [node.eq_def] at decoded
    simp only at decoded
    split at decoded
    · cases decoded
    split at decoded
    · cases decoded
    · obtain ⟨found, inner, -⟩ := bind_eq_ok.mp decoded
      exact ⟨found, inner⟩
    · obtain ⟨found, inner, -⟩ := bind_eq_ok.mp decoded
      exact ⟨found, inner⟩
    · rename_i known
      simp [known] at nested
    · rename_i known
      simp [known] at nested
    · rename_i known _
      simp [known] at nested
    · rename_i known
      simp [known] at nested
  obtain ⟨found, inner⟩ := inner
  exact ⟨more, found, carried, inner⟩

theorem NodeSurvives.subquery {ref : PropertyRef}
    (survives : decoder.NodeSurvives type depth ⟨Operator.isIn.name, ref, [.subquery source]⟩) :
    decoder.Survives (depth - 2) true source := by
  obtain ⟨_, result, reread, decoded⟩ := survives
  obtain ⟨other, more, -, carried, rfl⟩ := reread_node reread
  rw [Argument.rereadAll] at carried
  obtain ⟨again, inner, same⟩ := bind_eq_ok.mp carried
  obtain rfl := pure_eq_ok.mp same
  rw [node.eq_def] at decoded
  simp only [Schema.ofName?_name] at decoded
  split at decoded
  · cases decoded
  obtain ⟨_, -, decoded⟩ := bind_eq_ok.mp decoded
  obtain ⟨query, nested, -⟩ := bind_eq_ok.mp decoded
  exact ⟨again, query, inner, nested⟩

theorem ArgsSurvive.cons {written : Text}
    (survives : decoder.ArgsSurvive type depth written (.restriction source :: args)) :
    decoder.NodeSurvives type depth source ∧ decoder.ArgsSurvive type depth written args := by
  obtain ⟨_, result, reread, decoded⟩ := survives
  rw [Argument.rereadAll] at reread
  obtain ⟨first, head, reread⟩ := bind_eq_ok.mp reread
  obtain ⟨rest, tail, same⟩ := bind_eq_ok.mp reread
  obtain rfl := pure_eq_ok.mp same
  rw [children] at decoded
  obtain ⟨found, headDecoded, decoded⟩ := bind_eq_ok.mp decoded
  obtain ⟨more, tailDecoded, -⟩ := bind_eq_ok.mp decoded
  exact ⟨⟨first, found, head, headDecoded⟩, ⟨rest, more, tail, tailDecoded⟩⟩

end Nodes

theorem nodeSurvives_of_nodes {sources : List DocumentNode}
    (reread : DocumentNode.rereadAll sources = .ok again)
    (decoded : decoder.nodes type depth again = .ok roots) :
    ∀ source ∈ sources, decoder.NodeSurvives type depth source := by
  induction sources generalizing again roots with
  | nil => exact List.forall_mem_nil _
  | cons source sources ih =>
    rw [DocumentNode.rereadAll] at reread
    obtain ⟨first, head, reread⟩ := bind_eq_ok.mp reread
    obtain ⟨rest, tail, same⟩ := bind_eq_ok.mp reread
    obtain rfl := pure_eq_ok.mp same
    rw [nodes] at decoded
    obtain ⟨found, headDecoded, decoded⟩ := bind_eq_ok.mp decoded
    obtain ⟨more, tailDecoded, -⟩ := bind_eq_ok.mp decoded
    exact List.forall_mem_cons.mpr ⟨⟨first, found, head, headDecoded⟩, ih tail tailDecoded⟩

section Parts

variable (built : Schema.build declared = .ok decoder.schema)

include built

theorem undotted_of_leaf (member : type ∈ decoder.schema.types)
    (encoded : decoder.schema.encodeLeaf type operator path args = .ok source)
    (leaf : nests operator.name = false) (survives : decoder.NodeSurvives type depth source) :
    decoder.schema.IdsAlong PropertyId.Undotted type path := by
  obtain ⟨route, walked, rfl⟩ := Schema.walk_of_referred encoded
  exact (survives.ref leaf).undotted built member walked

/-- If a document survives, so do its nodes, and no id along the other paths has a dot. -/
theorem Survives.undotted {packages : Packages} {criteria : Criteria} {sources : List DocumentNode}
    (frames : decoder.schema.Frames packages criteria)
    (encodes : decoder.schema.Encodes criteria sources source)
    (survives : decoder.Survives depth isSubquery source)
    (trees : (∀ source ∈ sources, decoder.NodeSurvives criteria.type depth source) →
      ∀ restriction ∈ criteria.restriction,
        decoder.schema.IdsOfTree PropertyId.Undotted criteria.type restriction) :
    decoder.schema.IdsOfQuery PropertyId.Undotted criteria := by
  obtain ⟨_, result, reread, decoded⟩ := survives
  have member := frames.mem_types
  rw [encodes.same, Document.reread] at reread
  obtain ⟨columns, rereadColumns, reread⟩ := bind_eq_ok.mp reread
  obtain ⟨groupings, rereadGroupings, reread⟩ := bind_eq_ok.mp reread
  obtain ⟨nodes, rereadNodes, reread⟩ := bind_eq_ok.mp reread
  obtain ⟨orderings, rereadOrderings, same⟩ := bind_eq_ok.mp reread
  obtain rfl := pure_eq_ok.mp same
  rw [document] at decoded
  obtain ⟨type, found, decoded⟩ := bind_eq_ok.mp decoded
  have base := baseType_eq_ok (Schema.identified_of_build built) member
    (Schema.typeNamed?_of_resolve? frames.known)
  cases base.symm.trans found
  obtain ⟨chosen, selects, decoded⟩ := bind_eq_ok.mp decoded
  obtain ⟨groupBy, groups, decoded⟩ := bind_eq_ok.mp decoded
  obtain ⟨roots, decodes, decoded⟩ := bind_eq_ok.mp decoded
  obtain ⟨orderBy, orders, -⟩ := bind_eq_ok.mp decoded
  obtain ⟨plain, calls⟩ := undotted_of_selected built member encodes.select rereadColumns selects
  exact Schema.idsOfQuery_iff.mpr ⟨plain, calls,
    undotted_of_groupings built member encodes.group rereadGroupings groups,
    undotted_of_orderings built member encodes.order rereadOrderings orders,
    trees (nodeSurvives_of_nodes rereadNodes decodes)⟩

end Parts

mutual

/-- A restriction whose node survives has no path along which an id has a dot. -/
theorem undotted_of_node {packages : Packages} (built : Schema.build declared = .ok decoder.schema)
    {type : RecordType} (member : type ∈ decoder.schema.types) : (restriction : Restriction) →
    decoder.schema.Admits packages type restriction → ∀ depth source,
    decoder.schema.encodeNode type restriction = .ok source → decoder.NodeSurvives type depth source →
    decoder.schema.IdsOfTree PropertyId.Undotted type restriction
  | .missing, admitted, _, _, _, _ => admitted.elim
  | .comparison comparator _ _, _, _, _, encoded, survives =>
    (Schema.idsOfTree_leaf rfl rfl rfl).mpr
      (undotted_of_leaf built member encoded (by cases comparator <;> decide) survives)
  | .isNull _, _, _, _, encoded, survives =>
    (Schema.idsOfTree_leaf rfl rfl rfl).mpr
      (undotted_of_leaf built member encoded (by decide) survives)
  | .inValues _ _, _, _, _, encoded, survives =>
    (Schema.idsOfTree_leaf rfl rfl rfl).mpr
      (undotted_of_leaf built member encoded (by decide) survives)
  | .inQuery _ query, ⟨_, _, accepted⟩, _, _, encoded, survives => by
    obtain ⟨route, document, walked, inner, rfl⟩ := Schema.encodeNode_inQuery encoded
    have own := (survives.ref (by decide)).undotted built member walked
    have nested := undotted_of_document built query accepted _ _ document inner survives.subquery
    exact Schema.idsOfTree_inQuery.mpr ⟨own, nested⟩
  | .junction connective children, ⟨_, admitted⟩, _, _, encoded, survives => by
    obtain ⟨args, inner, rfl⟩ := Schema.encodeNode_junction encoded
    have kept := survives.args (by cases connective <;> decide)
    exact Schema.idsOfTree_junction.mpr
      (undotted_of_children built member children admitted _ _ args inner kept)
  | .not child, admitted, _, _, encoded, survives => by
    obtain ⟨node, inner, rfl⟩ := Schema.encodeNode_not encoded
    obtain ⟨kept, -⟩ := (survives.args (by decide)).cons
    exact Schema.idsOfTree_not.mpr (undotted_of_node built member child admitted _ node inner kept)

theorem undotted_of_children {packages : Packages} (built : Schema.build declared = .ok decoder.schema)
    {type : RecordType} (member : type ∈ decoder.schema.types) : (children : List Restriction) →
    decoder.schema.AdmitsAll packages type children → ∀ depth written args,
    decoder.schema.encodeNodes type children = .ok args → decoder.ArgsSurvive type depth written args →
    ∀ child ∈ children, decoder.schema.IdsOfTree PropertyId.Undotted type child
  | [], _, _, _, _, _, _ => List.forall_mem_nil _
  | child :: children, ⟨admitted, others⟩, _, _, _, encoded, survives => by
    obtain ⟨node, rest, first, more, rfl⟩ := Schema.encodeNodes_cons encoded
    obtain ⟨own, later⟩ := survives.cons
    exact List.forall_mem_cons.mpr ⟨undotted_of_node built member child admitted _ node first own,
      undotted_of_children built member children others _ _ rest more later⟩

theorem undotted_of_document {packages : Packages} (built : Schema.build declared = .ok decoder.schema) :
    (criteria : Criteria) → decoder.schema.Accepts packages criteria → ∀ depth isSubquery source,
    decoder.schema.encode criteria = .ok source → decoder.Survives depth isSubquery source →
    decoder.schema.IdsOfQuery PropertyId.Undotted criteria
  | ⟨_, _, _, none, _, _, _, _, _, _⟩, frames, _, _, _, encoded, survives => by
    refine survives.undotted built frames (Schema.encodes_of_none encoded rfl) ?_
    rintro - restriction ⟨⟩
  | ⟨_, _, _, some restriction, _, _, _, _, _, _⟩, ⟨frames, admitted⟩, _, _, _, encoded, survives => by
    obtain ⟨node, inner, encodes⟩ := Schema.encodes_of_some encoded rfl
    refine survives.undotted built frames encodes ?_
    rintro kept _ ⟨⟩
    exact undotted_of_node built frames.mem_types restriction admitted _ node inner (kept node (.head _))

end

end Decoder

/-- The ids along the paths of a query are ids along paths of the schema. -/
theorem Schema.IdsOfQuery.mono {schema : Schema} {packages : Packages} {criteria : Criteria}
    {good better : PropertyId → Prop} (ids : schema.IdsOfQuery good criteria)
    (accepted : schema.Accepts packages criteria)
    (along : ∀ type ∈ schema.types, ∀ path route, schema.walk type path = .ok route →
      good route.ids → better route.ids) : schema.IdsOfQuery better criteria := by
  intro query member path listed route walked
  have sensible : schema.Accepts packages query := by
    rcases List.mem_cons.mp member with rfl | nested
    · exact accepted
    · exact Schema.accepts_of_accepts criteria accepted query nested
  have known := (Schema.accepts_iff.mp sensible).1.mem_types
  exact along query.type known path route walked (ids query member path listed route walked)

/-- A schema that is declared with no dots in its ids has none along any path. -/
theorem Schema.undotted_of_declared {schema : Schema} {packages : Packages} {criteria : Criteria}
    (built : Schema.build declared = .ok schema)
    (given : ∀ type ∈ declared, ∀ field ∈ type.fields, Text.ascii '.' ∉ field.id)
    (accepted : schema.Accepts packages criteria) : schema.IdsOfQuery PropertyId.Undotted criteria := by
  have all : schema.IdsOfQuery (fun _ => True) criteria := fun _ _ _ _ _ _ => trivial
  refine all.mono accepted ?_
  intro type member path route walked _ segment listed
  obtain ⟨step, inside, rfl⟩ := List.mem_map.mp listed
  obtain ⟨known, owned⟩ := Schema.walkNames_steps member walked step inside
  exact Schema.undottedIds_of_build built given _ known _ owned

section Received

variable {schema : Schema} {packages : Packages} {criteria : Criteria} {document : Document}
  (valid : schema.IsUtf8) (accepted : schema.Accepts packages criteria)
  (values : ∀ value ∈ criteria.values, value.Legible) (encoded : schema.encode criteria = .ok document)

include valid accepted values encoded

/-- The document of a query is read back as it is but for its ids. -/
theorem read_write_of_encode : Document.read document.write =
    if document.toJson.nesting ≤ Json.maxNesting then document.reread else .error .undecodable := by
  have all : schema.IdsOfQuery (fun _ => True) criteria := fun _ _ _ _ _ _ => trivial
  have ids : schema.IdsOfQuery (fun id => id.text.isUtf8 = true) criteria :=
    all.mono accepted fun type member path route walked _ =>
      Text.isUtf8_join (Text.isUtf8_ofString ".") (valid.isUtf8_ids member walked)
  have blank : (PropertyId.text []).isUtf8 = true := rfl
  have legible : document.Legible fun id => id.text.isUtf8 = true :=
    Schema.legible_of_encode valid blank criteria accepted ids values document encoded
  exact Document.read_write legible fun _ valid => valid

theorem reread_of_undotted (built : Schema.build declared = .ok schema)
    (undotted : schema.IdsOfQuery PropertyId.Undotted criteria) : document.reread = .ok document := by
  have ids : schema.IdsOfQuery PropertyId.Portable criteria := by
    refine undotted.mono accepted ?_
    intro type member path route walked undotted segment listed
    have filled := Schema.walk_ids_ne_nil (Schema.filledIds_of_build built) member walked
    exact ⟨filled segment listed, undotted segment listed, valid.isUtf8_ids member walked segment listed⟩
  have legible : document.Legible PropertyId.Portable :=
    Schema.legible_of_encode valid (List.forall_mem_nil _) criteria accepted ids values document encoded
  exact document.reread_eq_self (fun _ => PropertyId.Portable.readId_toJson) legible

end Received

/-- Whatever a query text compiles to has a document whose text is nested no deeper than the query asks
for. If that is not too deep to be read, and no id along a path of the query or of a query in it has a dot,
then just the query is decoded from the text, with any packages; otherwise nothing is. -/
theorem decode_read_write_of_compile (declared : List RecordType) (schema : Schema)
    (built : Schema.build declared = .ok schema) (valid : schema.IsUtf8) (packages : Packages)
    (operators : Text) (maxDepth : Nat) (text : Text) (validText : text.isUtf8 = true) (criteria : Criteria)
    (compiled : (⟨schema, packages, operators, maxDepth⟩ : Compiler).compile text = .ok criteria) :
    ∃ document, schema.encode criteria = .ok document ∧ document.toJson.nesting ≤ 2 * maxDepth + 3 ∧
      ∀ (others : Packages) (decoded : Criteria),
        (∃ received, Document.read document.write = .ok received ∧
          (⟨schema, others, maxDepth⟩ : Decoder).decode received = .ok decoded) ↔
        decoded = criteria ∧ document.toJson.nesting ≤ Json.maxNesting ∧
          schema.IdsOfQuery PropertyId.Undotted criteria := by
  obtain ⟨accepted, top, levels⟩ := Compiler.accepts_of_compile compiled
  simp only at levels
  have identified := Schema.identified_of_build built
  have decodes : ∀ others : Packages, ∃ document, schema.encode criteria = .ok document ∧
      (⟨schema, others, maxDepth⟩ : Decoder).decode document = .ok criteria := by
    intro others
    have back := Decoder.encode_decodes ⟨schema, others, maxDepth⟩ maxDepth identified
      (fun _ _ => Decoder.encodeNode_decodes identified) accepted levels
    rwa [top] at back
  have values : ∀ value ∈ criteria.values, value.Legible := by
    intro value member
    obtain ⟨t, rfl, validValue⟩ := Compiler.isUtf8_of_compile compiled validText value member
    exact validValue
  obtain ⟨document, encoded, -⟩ := decodes packages
  have nested := Schema.nesting_of_encode criteria document encoded
  have read := read_write_of_encode valid accepted values encoded
  have kept := reread_of_undotted valid accepted values encoded built
  refine ⟨document, encoded, by omega, ?_⟩
  intro others decoded
  obtain ⟨_, same, back⟩ := decodes others
  cases encoded.symm.trans same
  constructor
  · rintro ⟨received, reread, redecoded⟩
    rw [read] at reread
    split at reread
    · rename_i shallow
      have survives : (⟨schema, others, maxDepth⟩ : Decoder).Survives maxDepth false document :=
        ⟨received, decoded, reread, redecoded⟩
      have undotted := Decoder.undotted_of_document built criteria accepted _ _ document encoded survives
      cases (kept undotted).symm.trans reread
      cases back.symm.trans redecoded
      exact ⟨rfl, shallow, undotted⟩
    · cases reread
  · rintro ⟨rfl, shallow, undotted⟩
    refine ⟨document, ?_, back⟩
    rw [read, if_pos shallow, kept undotted]

/-- Lofts have a name, and a loft nearby. -/
def loftType : RecordType :=
  { id := "t1", name := "acme.Loft", label := "Schlag", table := "loft", defaultField := "name"
    fields := [{ id := "f1", name := "id", label := "Id", column := "id", kind := .id },
      { id := "f2", name := "name", label := "Höhe", column := "name", kind := .text },
      { id := "f-3", name := "near", label := "Près", column := "near", kind := .reference,
        target := "acme.Loft" }] }

def loftText : Text :=
  Text.ofString "SELECT name, COUNT(*) FROM Loft WHERE NOT (near.name = 'Zoë' OR near IN " ++
    Text.ofString "(SELECT id FROM Loft WHERE name ISNULL LIMIT 3)) GROUP BY name " ++
    Text.ofString "ORDER BY near.name DESC OFFSET 7"

theorem lofts_received : ∃ criteria document received,
    (⟨⟨[loftType]⟩, ⟨"acme", []⟩, [], 32⟩ : Compiler).compile loftText = .ok criteria ∧
      Schema.encode ⟨[loftType]⟩ criteria = .ok document ∧ Document.read document.write = .ok received ∧
      (⟨⟨[loftType]⟩, ⟨[], "other"⟩, 32⟩ : Decoder).decode received = .ok criteria := by
  have compiles :
      ((⟨⟨[loftType]⟩, ⟨"acme", []⟩, [], 32⟩ : Compiler).compile loftText).toBool = true := by
    decide +kernel
  obtain ⟨criteria, compiled⟩ := exists_ok_of_toBool compiles
  obtain ⟨accepted, -⟩ := Compiler.accepts_of_compile compiled
  obtain ⟨document, encoded, nested, receives⟩ := decode_read_write_of_compile [loftType] ⟨[loftType]⟩ rfl
    ⟨by decide, by decide⟩ _ _ _ _ (by decide) _ compiled
  have built : Schema.build [loftType] = .ok ⟨[loftType]⟩ := rfl
  have undotted := Schema.undotted_of_declared built (by decide) accepted
  obtain ⟨received, reread, decoded⟩ := (receives ⟨[], "other"⟩ criteria).mpr
    ⟨rfl, Nat.le_trans nested (by decide), undotted⟩
  exact ⟨criteria, document, received, compiled, encoded, reread, decoded⟩

/-- Perches are declared with a dot in the id of their name. -/
def perchType : RecordType :=
  { id := "t1", name := "acme.Perch", label := "Perch", table := "perch", defaultField := "name"
    fields := [{ id := "f1", name := "id", label := "Id", column := "id", kind := .id },
      { id := "a.b", name := "name", label := "Name", column := "name", kind := .text }] }

def perchCompiler : Compiler := ⟨⟨[perchType]⟩, ⟨"acme", []⟩, [], 32⟩

def perchDecoder : Decoder := ⟨⟨[perchType]⟩, ⟨"acme", []⟩, 32⟩

/-- The id is taken for two ids when it is read back, and no such field is known. -/
theorem perches_lost : Schema.build [perchType] = .ok perchDecoder.schema ∧ perchDecoder.schema.IsUtf8 ∧
    ∃ criteria document received error, perchCompiler.compile "SELECT name FROM Perch" = .ok criteria ∧
      perchDecoder.schema.encode criteria = .ok document ∧ Document.read document.write = .ok received ∧
      perchDecoder.decode received = .error error := by
  have evaluated : ((perchCompiler.compile "SELECT name FROM Perch").toOption.bind fun criteria =>
      (perchDecoder.schema.encode criteria).toOption.bind fun document =>
      (Document.read document.write).toOption.map fun received =>
      (perchDecoder.decode received).toBool) = some false := by
    decide +kernel
  obtain ⟨criteria, compiled, evaluated⟩ := Option.bind_eq_some_iff.mp evaluated
  obtain ⟨document, encoded, evaluated⟩ := Option.bind_eq_some_iff.mp evaluated
  obtain ⟨received, reread, fails⟩ := Option.map_eq_some_iff.mp evaluated
  refine ⟨rfl, ⟨by decide, by decide⟩, criteria, document, received, ?_⟩
  cases decoded : perchDecoder.decode received with
  | ok decoded =>
    rw [decoded] at fails
    cases fails
  | error error =>
    exact ⟨error, toOption_eq_some.mp compiled, toOption_eq_some.mp encoded, toOption_eq_some.mp reread, rfl⟩

end RecordQuery
