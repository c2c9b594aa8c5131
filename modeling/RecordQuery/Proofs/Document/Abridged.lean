import RecordQuery.Proofs.Document.Encoded
import RecordQuery.Proofs.Document.RoundTrip
import RecordQuery.Proofs.Schema.Ids

/-! Documents with less in them. An id leads where the name beside it leads, so of the two one may be
left out, at each place on its own, and the document is still decoded to the same query. -/
namespace RecordQuery

/-- What there is of an id and a name if at most one of them is left out. -/
inductive Leaves {α β : Type} (id : List α) (name : List β) : List α → List β → Prop where
  | both : Leaves id name id name
  | idOnly : Leaves id name id []
  | nameOnly : Leaves id name [] name

def PropertyRef.Abridges (short full : PropertyRef) : Prop :=
  Leaves full.id full.name short.id short.name

/-- The name on display may be any. -/
structure SelectedProperty.Abridges (short full : SelectedProperty) : Prop where
  refers : short.ref.Abridges full.ref
  function : short.function = full.function

structure DocumentOrdering.Abridges (short full : DocumentOrdering) : Prop where
  refers : short.ref.Abridges full.ref
  direction : short.direction = full.direction

mutual

inductive DocumentNode.Abridges : DocumentNode → DocumentNode → Prop where
  | mk {ref fullRef : PropertyRef} (refers : ref.Abridges fullRef)
      (arguments : Argument.AbridgesAll args fullArgs) :
      DocumentNode.Abridges ⟨operator, ref, args⟩ ⟨operator, fullRef, fullArgs⟩

inductive Argument.AbridgesAll : List Argument → List Argument → Prop where
  | nil : Argument.AbridgesAll [] []
  | value (rest : Argument.AbridgesAll args fullArgs) :
      Argument.AbridgesAll (.value value :: args) (.value value :: fullArgs)
  | restriction (first : DocumentNode.Abridges node fullNode)
      (rest : Argument.AbridgesAll args fullArgs) :
      Argument.AbridgesAll (.restriction node :: args) (.restriction fullNode :: fullArgs)
  | subquery (first : Document.Abridges document fullDocument)
      (rest : Argument.AbridgesAll args fullArgs) :
      Argument.AbridgesAll (.subquery document :: args) (.subquery fullDocument :: fullArgs)

inductive DocumentNode.AbridgesAll : List DocumentNode → List DocumentNode → Prop where
  | nil : DocumentNode.AbridgesAll [] []
  | cons (first : DocumentNode.Abridges node fullNode) (rest : DocumentNode.AbridgesAll nodes fullNodes) :
      DocumentNode.AbridgesAll (node :: nodes) (fullNode :: fullNodes)

/-- The first document is the second one, where each reference and each queried type may have lost its
name or its id, but not both. -/
inductive Document.Abridges : Document → Document → Prop where
  | mk (base : Leaves fullId fullName typeId typeName)
      (properties : List.Forall₂ SelectedProperty.Abridges selected fullSelected)
      (groupings : List.Forall₂ PropertyRef.Abridges groups fullGroups)
      (restrictions : DocumentNode.AbridgesAll nodes fullNodes)
      (orderings : List.Forall₂ DocumentOrdering.Abridges orders fullOrders) :
      Document.Abridges ⟨typeId, typeName, selected, groups, nodes, orders, limit, offset⟩
        ⟨fullId, fullName, fullSelected, fullGroups, fullNodes, fullOrders, limit, offset⟩

end

def PropertyRef.withoutName (ref : PropertyRef) : PropertyRef := ⟨ref.id, []⟩

mutual

def DocumentNode.withoutNames : DocumentNode → DocumentNode
  | ⟨operator, ref, args⟩ => ⟨operator, ref.withoutName, Argument.withoutNamesAll args⟩

def Argument.withoutNamesAll : List Argument → List Argument
  | [] => []
  | .value value :: args => .value value :: Argument.withoutNamesAll args
  | .restriction node :: args => .restriction node.withoutNames :: Argument.withoutNamesAll args
  | .subquery document :: args => .subquery document.withoutNames :: Argument.withoutNamesAll args

def DocumentNode.withoutNamesAll : List DocumentNode → List DocumentNode
  | [] => []
  | node :: nodes => node.withoutNames :: DocumentNode.withoutNamesAll nodes

/-- The document with ids only. -/
def Document.withoutNames : Document → Document
  | ⟨typeId, _, properties, groupings, restrictions, orderings, limit, offset⟩ =>
    ⟨typeId, [], properties.map fun property => { property with ref := property.ref.withoutName },
      groupings.map (·.withoutName), DocumentNode.withoutNamesAll restrictions,
      orderings.map fun ordering => { ordering with ref := ordering.ref.withoutName }, limit, offset⟩

end

section WithoutNames

theorem forall₂_map_left {related : α → α → Prop} {change : α → α} (values : List α)
    (each : ∀ value, related (change value) value) : List.Forall₂ related (values.map change) values :=
  List.forall₂_map_left_iff.mpr (List.forall₂_same.mpr fun value _ => each value)

mutual

theorem DocumentNode.abridges_withoutNames : (node : DocumentNode) → node.withoutNames.Abridges node
  | ⟨_, _, args⟩ => .mk .idOnly (Argument.abridgesAll_withoutNamesAll args)

theorem Argument.abridgesAll_withoutNamesAll : (args : List Argument) →
    Argument.AbridgesAll (Argument.withoutNamesAll args) args
  | [] => .nil
  | .value _ :: args => .value (Argument.abridgesAll_withoutNamesAll args)
  | .restriction node :: args =>
    .restriction node.abridges_withoutNames (Argument.abridgesAll_withoutNamesAll args)
  | .subquery document :: args =>
    .subquery document.abridges_withoutNames (Argument.abridgesAll_withoutNamesAll args)

theorem DocumentNode.abridgesAll_withoutNamesAll : (nodes : List DocumentNode) →
    DocumentNode.AbridgesAll (DocumentNode.withoutNamesAll nodes) nodes
  | [] => .nil
  | node :: nodes => .cons node.abridges_withoutNames (DocumentNode.abridgesAll_withoutNamesAll nodes)

theorem Document.abridges_withoutNames : (document : Document) → document.withoutNames.Abridges document
  | ⟨_, _, properties, groupings, restrictions, orderings, _, _⟩ =>
    .mk .idOnly (forall₂_map_left properties fun _ => ⟨.idOnly, rfl⟩)
      (forall₂_map_left groupings fun _ => .idOnly) (DocumentNode.abridgesAll_withoutNamesAll restrictions)
      (forall₂_map_left orderings fun _ => ⟨.idOnly, rfl⟩)

end

end WithoutNames

theorem Argument.AbridgesAll.eq_values {values : List Value}
    (abridges : Argument.AbridgesAll args (values.map .value)) :
    args = values.map .value := by
  induction values generalizing args with
  | nil =>
    cases abridges
    rfl
  | cons value values ih =>
    cases abridges with
    | value rest => rw [ih rest, List.map_cons]

theorem mapM_of_forall₂ {step : α → Except ε β} {related : α → α → Prop} {values others : List α}
    (all : List.Forall₂ related values others)
    (same : ∀ other ∈ others, ∀ value, related value other → step value = step other) :
    values.mapM step = others.mapM step := by
  induction all with
  | nil => rfl
  | cons first rest ih =>
    rw [List.mapM_cons, List.mapM_cons, same _ (.head _) _ first,
      ih fun other member => same other (.tail _ member)]

namespace Decoder

variable {decoder : Decoder} {packages : Packages} {type : RecordType} {path : Text} {route : Route}

section Refer

variable (addressed : decoder.schema.Addressed) (member : type ∈ decoder.schema.types)

include addressed member

theorem resolve_of_abridges {ref : PropertyRef} (walked : decoder.schema.walk type path = .ok route)
    (abridges : ref.Abridges ⟨route.ids, path⟩) :
    decoder.resolve type ref = decoder.resolve type ⟨route.ids, path⟩ := by
  rw [resolve_eq_ok addressed.identified member walked]
  have ids : route.ids ≠ [] := by simp [Route.ids, Route.steps]
  have filled : path ≠ [] := addressed.named.path_ne_nil member walked
  obtain ⟨id, name⟩ := ref
  change Leaves route.ids path id name at abridges
  cases abridges with
  | both => exact resolve_eq_ok addressed.identified member walked
  | idOnly =>
    rw [resolve]
    simp [ids, addressed.identified.walkIds member walked, Except.mapError, bind, Except.bind, pure, Except.pure]
  | nameOnly =>
    rw [resolve]
    simp [filled, walked, Except.mapError, bind, Except.bind, pure, Except.pure]

theorem key_of_abridges {ref : PropertyRef} (walked : decoder.schema.walk type path = .ok route)
    (abridges : ref.Abridges ⟨route.ids, path⟩) :
    decoder.key type ref = decoder.key type ⟨route.ids, path⟩ := by
  rw [key, key, resolve_of_abridges addressed member walked abridges]

theorem selected_of_abridges {short property : SelectedProperty}
    (chosen : decoder.schema.select type path function = .ok property)
    (abridges : short.Abridges property) :
    decoder.selected type short = decoder.selected type property := by
  obtain ⟨route, walked, rfl⟩ := Schema.walk_of_select chosen
  rw [selected, selected, resolve_of_abridges addressed member walked abridges.refers,
    abridges.function]

theorem sortKey_of_abridges {short ordering : DocumentOrdering}
    (made : (do return ⟨(← decoder.schema.refer type path).1, direction⟩) = Except.ok ordering)
    (abridges : short.Abridges ordering) :
    decoder.sortKey type short = decoder.sortKey type ordering := by
  obtain ⟨route, walked, rfl⟩ := Schema.walk_of_referred made
  rw [sortKey, sortKey, key_of_abridges addressed member walked abridges.refers,
    abridges.direction]

/-- A node with values only. -/
theorem node_of_abridges_leaf (values : List Value) {node short : DocumentNode}
    (encoded : decoder.schema.encodeLeaf type operator path (values.map .value) = .ok node)
    (abridges : short.Abridges node) :
    decoder.node type depth short = decoder.node type depth node := by
  obtain ⟨route, walked, rfl⟩ := Schema.walk_of_referred encoded
  cases abridges with
  | mk refers arguments =>
    rw [arguments.eq_values, node.eq_def, node.eq_def]
    simp only [key_of_abridges addressed member walked refers]

end Refer

theorem baseType_of_abridges (addressed : decoder.schema.Addressed)
    (known : decoder.schema.typeNamed? type.name = some type)
    (leaves : Leaves type.id type.name typeId typeName) :
    decoder.baseType typeId typeName = .ok type := by
  have member : type ∈ decoder.schema.types := List.mem_of_find?_eq_some known
  cases leaves with
  | both => exact baseType_eq_ok addressed.identified member known
  | idOnly =>
    rw [baseType]
    simp [addressed.typeIds type member, addressed.identified.typeById? member]
  | nameOnly =>
    rw [baseType]
    simp [addressed.identified.named type member, Schema.resolve?_of_typeNamed? known]

/-- A document apart from its restrictions. -/
theorem document_of_abridges_nodes {criteria : Criteria} {nodes : List DocumentNode} {full short : Document}
    (addressed : decoder.schema.Addressed) (frames : decoder.schema.Frames packages criteria)
    (encodes : decoder.schema.Encodes criteria nodes full) (abridges : short.Abridges full)
    (roots : decoder.nodes criteria.type depth short.restrictions =
      decoder.nodes criteria.type depth nodes) :
    decoder.document depth isSubquery short = decoder.document depth isSubquery full := by
  have known := Schema.typeNamed?_of_resolve? frames.known
  have member := frames.mem_types
  obtain ⟨select, group, order, same⟩ := encodes
  cases abridges with
  | @mk fullId fullName typeId typeName selected fullSelected groups fullGroups _ _ orders fullOrders _ _
      base properties groupings _ orderings =>
    cases same
    have base := baseType_of_abridges addressed known base
    have full := baseType_eq_ok addressed.identified member known
    have selects : selected.mapM (decoder.selected criteria.type) =
        fullSelected.mapM (decoder.selected criteria.type) := by
      apply mapM_of_forall₂ properties
      intro property listed short abridges
      rw [Schema.encodeSelect_eq] at select
      obtain ⟨⟨path, function⟩, -, chosen⟩ := forall₂_mem_right (list_mapM_eq_ok.mp select) listed
      exact selected_of_abridges addressed member chosen abridges
    have keys : (groups.mapM fun ref => do return (← decoder.key criteria.type ref).1) =
        fullGroups.mapM fun ref => do return (← decoder.key criteria.type ref).1 := by
      apply mapM_of_forall₂ groupings
      intro ref listed short abridges
      obtain ⟨path, -, referred⟩ := forall₂_mem_right (list_mapM_eq_ok.mp group) listed
      obtain ⟨route, walked, rfl⟩ := Schema.walk_of_referred referred
      rw [key_of_abridges addressed member walked abridges]
    have sorts : orders.mapM (decoder.sortKey criteria.type) =
        fullOrders.mapM (decoder.sortKey criteria.type) := by
      apply mapM_of_forall₂ orderings
      intro ordering listed short abridges
      obtain ⟨key, -, made⟩ := forall₂_mem_right (list_mapM_eq_ok.mp order) listed
      exact sortKey_of_abridges addressed member made abridges
    simp only [document, base, full, ok_bind, selects, keys, roots, sorts]

mutual

theorem node_of_abridges (addressed : decoder.schema.Addressed) : (restriction : Restriction) →
    {type : RecordType} → (depth : Nat) → {node short : DocumentNode} → type ∈ decoder.schema.types →
    decoder.schema.Admits packages type restriction →
    decoder.schema.encodeNode type restriction = .ok node → short.Abridges node →
    decoder.node type depth short = decoder.node type depth node
  | .missing, _, _, _, _, _, admitted, _, _ => admitted.elim
  | .comparison comparator path value, _, _, _, _, member, _, encoded, abridges =>
    node_of_abridges_leaf addressed member [value] encoded abridges
  | .isNull path, _, _, _, _, member, _, encoded, abridges =>
    node_of_abridges_leaf addressed member [] encoded abridges
  | .inValues path values, _, _, _, _, member, _, encoded, abridges =>
    node_of_abridges_leaf addressed member values encoded abridges
  | .inQuery path query, _, depth, _, _, member, admitted, encoded, abridges => by
    obtain ⟨route, document, walked, nested, rfl⟩ := Schema.encodeNode_inQuery encoded
    cases abridges with
    | mk refers arguments =>
      cases arguments with
      | subquery first rest =>
        cases rest
        have same := document_of_abridges addressed query (depth - 2) true admitted.2.2 nested first
        rw [node.eq_def, node.eq_def]
        simp only [Schema.ofName?_name, key_of_abridges addressed member walked refers, same]
  | .junction connective children, _, depth, _, _, member, admitted, encoded, abridges => by
    obtain ⟨args, nested, rfl⟩ := Schema.encodeNode_junction encoded
    cases abridges with
    | mk refers arguments =>
      have same := children_of_abridges addressed children (depth - 1) connective.name member
        admitted.2 nested arguments
      have named : Operator.ofName? connective.name = some (.connect connective) :=
        Schema.ofName?_name (.connect connective)
      rw [node.eq_def, node.eq_def]
      simp only [named, same]
  | .not child, _, depth, _, _, member, admitted, encoded, abridges => by
    obtain ⟨inner, nested, rfl⟩ := Schema.encodeNode_not encoded
    rw [Schema.Admits] at admitted
    cases abridges with
    | mk refers arguments =>
      cases arguments with
      | restriction first rest =>
        cases rest
        have same := node_of_abridges addressed child (depth - 1) member admitted nested first
        rw [node.eq_def, node.eq_def]
        simp only [Schema.ofName?_name, children, same]

theorem children_of_abridges (addressed : decoder.schema.Addressed) : (restrictions : List Restriction) →
    {type : RecordType} → (depth : Nat) → {args shorts : List Argument} → (written : Text) →
    type ∈ decoder.schema.types → decoder.schema.AdmitsAll packages type restrictions →
    decoder.schema.encodeNodes type restrictions = .ok args → Argument.AbridgesAll shorts args →
    decoder.children type depth written shorts = decoder.children type depth written args
  | [], _, _, _, _, _, _, _, encoded, abridges => by
    rw [Schema.encodeNodes] at encoded
    cases encoded
    cases abridges
    rfl
  | child :: rest, _, depth, _, _, written, member, admitted, encoded, abridges => by
    obtain ⟨node, args, first, others, rfl⟩ := Schema.encodeNodes_cons encoded
    cases abridges with
    | restriction head tail =>
      rw [children, children, node_of_abridges addressed child depth member admitted.1 first head,
        children_of_abridges addressed rest depth written member admitted.2 others tail]

theorem document_of_abridges (addressed : decoder.schema.Addressed) : (criteria : Criteria) →
    (depth : Nat) → (isSubquery : Bool) → {full short : Document} →
    decoder.schema.Accepts packages criteria → decoder.schema.encode criteria = .ok full →
    short.Abridges full →
    decoder.document depth isSubquery short = decoder.document depth isSubquery full
  | ⟨type, properties, aggregates, none, groupBy, orderBy, limit, offset, aliases, isSubquery⟩,
      depth, _, _, _, accepted, encoded, abridges => by
    have encodes := Schema.encodes_of_none encoded rfl
    apply document_of_abridges_nodes addressed accepted encodes abridges
    have same := encodes.same
    cases abridges with
    | mk _ _ _ restrictions _ =>
      cases same
      cases restrictions
      rfl
  | ⟨type, properties, aggregates, some restriction, groupBy, orderBy, limit, offset, aliases,
      isSubquery⟩, depth, _, _, _, ⟨frames, admitted⟩, encoded, abridges => by
    obtain ⟨node, nested, encodes⟩ := Schema.encodes_of_some encoded rfl
    apply document_of_abridges_nodes addressed frames encodes abridges
    have only := encodes.same
    cases abridges with
    | mk _ _ _ restrictions _ =>
      cases only
      cases restrictions with
      | cons first rest =>
        cases rest
        have same := node_of_abridges addressed restriction depth frames.mem_types admitted nested first
        simp only [nodes, same]

end

/-- However much it is abridged, the document of a query decodes to the query. -/
theorem decode_of_accepts {schema : Schema} {criteria : Criteria} {maxDepth : Nat}
    (addressed : schema.Addressed) (accepted : schema.Accepts packages criteria)
    (top : criteria.isSubquery = false) (levels : criteria.levels ≤ maxDepth) :
    ∃ document, schema.encode criteria = .ok document ∧
      ∀ (others : Packages) (short : Document), short.Abridges document →
        (⟨schema, others, maxDepth⟩ : Decoder).decode short = .ok criteria := by
  have decodes : ∀ others : Packages, ∃ document, schema.encode criteria = .ok document ∧
      (⟨schema, others, maxDepth⟩ : Decoder).document maxDepth false document = .ok criteria := by
    intro others
    rw [← top]
    exact encode_decodes ⟨schema, others, maxDepth⟩ maxDepth addressed.identified
      (fun _ _ => encodeNode_decodes addressed.identified) accepted levels
  obtain ⟨document, encoded, -⟩ := decodes packages
  refine ⟨document, encoded, ?_⟩
  intro others short abridges
  obtain ⟨again, same, decoded⟩ := decodes others
  cases encoded.symm.trans same
  rw [decode, ← decoded]
  exact document_of_abridges addressed criteria maxDepth false accepted encoded abridges

end Decoder

/-- Whatever a query text compiles to has a document, and with either the id or the name left out of any of
its references and queried types the document still decodes to just that query, in a schema that was built,
at the same depth and with any packages. -/
theorem decode_of_abridges (declared : List RecordType) (schema : Schema)
    (built : Schema.build declared = .ok schema) (packages : Packages) (operators : Text)
    (maxDepth : Nat) (text : Text) (criteria : Criteria)
    (compiled : (⟨schema, packages, operators, maxDepth⟩ : Compiler).compile text = .ok criteria) :
    ∃ document, schema.encode criteria = .ok document ∧
      ∀ (others : Packages) (short : Document), short.Abridges document →
        (⟨schema, others, maxDepth⟩ : Decoder).decode short = .ok criteria := by
  obtain ⟨accepted, top, levels⟩ := Compiler.accepts_of_compile compiled
  exact Decoder.decode_of_accepts (Schema.addressed_of_build built) accepted top levels

/-- The type by its name, all else by ids. -/
def Document.byTypeName (document : Document) : Document :=
  { document.withoutNames with typeId := [], typeName := document.typeName }

theorem Document.abridges_byTypeName (document : Document) : document.byTypeName.Abridges document := by
  have abridges := document.abridges_withoutNames
  cases document
  cases abridges with
  | mk _ properties groupings restrictions orderings =>
    exact .mk .nameOnly properties groupings restrictions orderings

theorem pigeons_decode_byTypeName : ∃ criteria document,
    (⟨⟨[pigeonType]⟩, ⟨"acme", []⟩, [], 32⟩ : Compiler).compile pigeonText = .ok criteria ∧
      Schema.encode ⟨[pigeonType]⟩ criteria = .ok document ∧
      (⟨⟨[pigeonType]⟩, ⟨[], "other"⟩, 32⟩ : Decoder).decode document.byTypeName = .ok criteria := by
  have compiles :
      ((⟨⟨[pigeonType]⟩, ⟨"acme", []⟩, [], 32⟩ : Compiler).compile pigeonText).toBool = true := by
    decide +kernel
  obtain ⟨criteria, compiled⟩ := exists_ok_of_toBool compiles
  obtain ⟨document, encoded, decodes⟩ :=
    decode_of_abridges [pigeonType] ⟨[pigeonType]⟩ rfl _ _ _ _ _ compiled
  exact ⟨criteria, document, compiled, encoded, decodes _ _ document.abridges_byTypeName⟩

end RecordQuery
