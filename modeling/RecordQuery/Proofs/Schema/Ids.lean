import RecordQuery.Proofs.Compile.Binding
import RecordQuery.Proofs.Criteria.Lawful
import RecordQuery.Proofs.Schema.Naming
import RecordQuery.Proofs.Text.Utf8
import RecordQuery.PropertyId

/-! The ids along the paths of a query. A schema that was built has none that are empty, but nothing
keeps dots out of them. -/
namespace RecordQuery

theorem Text.not_mem_hex (width n : Nat) : ascii '.' ∉ hex width n := by
  induction width generalizing n with
  | zero => exact List.not_mem_nil
  | succ width ih =>
    have digits : ∀ digit < 16, ascii '.' ≠ hexDigit digit := by decide
    have last := digits (n % 16) (Nat.mod_lt n (by decide))
    simp [hex, ih, last]

namespace DerivedId

theorem write_ne_nil (id : List UInt8) : write id ≠ [] := by
  intro empty
  have length := congrArg List.length empty
  have separator : (Text.ofString "-").length = 1 := rfl
  simp only [write, Text.join, List.intercalate_cons_cons, List.length_append, List.length_nil] at length
  omega

theorem not_mem_write (id : List UInt8) : Text.ascii '.' ∉ write id := by
  have dash : Text.ascii '.' ∉ Text.ofString "-" := by decide
  simp [write, Text.join, List.intercalate_cons_cons, Text.not_mem_hex, dash]

end DerivedId

namespace Restriction

theorem mem_properties_iff {restriction : Restriction} : path ∈ restriction.properties ↔
    ∃ node ∈ restriction.visit fun _ => true, node.property? = some path := by
  rw [properties, List.mem_eraseDups, List.mem_filterMap]

/-- A restriction of one node has one path. -/
theorem mem_properties_leaf {restriction : Restriction}
    (visits : restriction.visit (fun _ => true) = [restriction])
    (named : restriction.property? = some path) : other ∈ restriction.properties ↔ other = path := by
  simp [mem_properties_iff, visits, named, eq_comm]

theorem mem_properties_not {child : Restriction} :
    path ∈ (not child).properties ↔ path ∈ child.properties := by
  simp [mem_properties_iff, visit, property?]

theorem mem_properties_junction {children : List Restriction} :
    path ∈ (junction connective children).properties ↔ ∃ child ∈ children, path ∈ child.properties := by
  simp only [mem_properties_iff, visit, ↓reduceIte, List.mem_cons, exists_eq_or_imp, property?,
    reduceCtorEq, false_or, Query.mem_visitAll_iff]
  grind

end Restriction

namespace Schema

variable {schema : Schema} {declared : List RecordType}

section Build

/-- The ids of the fields are those that are declared, and derived ones. -/
theorem ids_of_build (good : Text → Prop) (built : build declared = .ok schema)
    (given : ∀ type ∈ declared, ∀ field ∈ type.fields, field.id ≠ [] → good field.id)
    (derived : ∀ id, good (DerivedId.write id)) :
    ∀ type ∈ schema.types, ∀ field ∈ type.fields, good field.id := by
  have completes : ∀ owner, ∀ field : Field, (field.id ≠ [] → good field.id) → good (field.complete owner).id := by
    intro owner field own
    rw [Field.complete, Text.orElse]
    split
    · exact derived _
    · rename_i declared
      exact own (by simpa using declared)
  refine fields_of_build built ?_ fun owner => completes owner _ fun declared => absurd rfl declared
  intro type member field owned
  exact completes type.name field (given type member field owned)

theorem filledIds_of_build (built : build declared = .ok schema) :
    ∀ type ∈ schema.types, ∀ field ∈ type.fields, field.id ≠ [] :=
  ids_of_build (· ≠ []) built (fun _ _ _ _ filled => filled) DerivedId.write_ne_nil

/-- If no id is declared with a dot, none has one. -/
theorem undottedIds_of_build (built : build declared = .ok schema)
    (given : ∀ type ∈ declared, ∀ field ∈ type.fields, Text.ascii '.' ∉ field.id) :
    ∀ type ∈ schema.types, ∀ field ∈ type.fields, Text.ascii '.' ∉ field.id :=
  ids_of_build (Text.ascii '.' ∉ ·) built (fun type member field owned _ => given type member field owned)
    DerivedId.not_mem_write

/-- Types and their fields can be told by their names as well as by their ids. -/
structure Addressed (schema : Schema) : Prop where
  identified : schema.Identified
  named : schema.Named
  typeIds : ∀ type ∈ schema.types, type.id ≠ []
  typeNames : (schema.types.map (·.name)).Nodup

theorem complete_id_ne_nil (type : RecordType) : type.complete.id ≠ [] := by
  change type.id.orElse (DerivedId.ofType type.name) ≠ []
  unfold Text.orElse
  split
  · exact DerivedId.write_ne_nil _
  · rename_i given
    simpa using given

theorem accept_addresses (accepts : accept [] declared = .ok all) :
    (∀ type ∈ all, type.id ≠ []) ∧ (all.map (·.name)).Nodup := by
  refine accept_induction (motive := fun all => (∀ type ∈ all, type.id ≠ []) ∧ (all.map (·.name)).Nodup)
    accepts (by simp) ?_
  intro before type _ ⟨filled, distinct⟩ _ fresh _
  exact ⟨List.forall_mem_append.mpr ⟨filled, List.forall_mem_singleton.mpr
    (complete_id_ne_nil type)⟩, nodup_key_concat distinct fresh⟩

theorem addressed_of_build (built : build declared = .ok schema) : schema.Addressed := by
  have identified := identified_of_build built
  have named := named_of_build built
  obtain ⟨all, accepts, built⟩ := bind_eq_ok.mp built
  obtain ⟨_, -, same⟩ := bind_eq_ok.mp built
  obtain rfl := pure_eq_ok.mp same
  obtain ⟨filled, distinct⟩ := accept_addresses accepts
  exact ⟨identified, named, filled, distinct⟩

theorem Addressed.typeNamed? (addressed : schema.Addressed) (member : type ∈ schema.types) :
    schema.typeNamed? type.name = some type :=
  find?_of_key_nodup addressed.typeNames member

end Build

section Walk

/-- The fields along a path are fields of types of the schema. -/
theorem walkNames_steps (member : owner ∈ schema.types)
    (walked : schema.walkNames path owner name names = .ok route) :
    ∀ step ∈ route.steps, step.owner ∈ schema.types ∧ step.field ∈ step.owner.fields := by
  induction names generalizing owner name route with
  | nil =>
    rw [walkNames] at walked
    split at walked
    · cases walked
    · rename_i field found
      cases walked
      exact List.forall_mem_singleton.mpr ⟨member, List.mem_of_find?_eq_some found⟩
  | cons next names ih =>
    rw [walkNames] at walked
    split at walked
    · cases walked
    · rename_i field found
      obtain ⟨target, leads, walked⟩ := bind_eq_ok.mp walked
      obtain ⟨inner, deeper, same⟩ := bind_eq_ok.mp walked
      obtain rfl := pure_eq_ok.mp same
      have known := (follow_eq_ok leads path).2
      exact List.forall_mem_cons.mpr ⟨⟨member, List.mem_of_find?_eq_some found⟩, ih known deeper⟩

theorem walk_ids_ne_nil (filled : ∀ type ∈ schema.types, ∀ field ∈ type.fields, field.id ≠ [])
    (member : base ∈ schema.types) (walked : schema.walk base path = .ok route) :
    ∀ id ∈ route.ids, id ≠ [] := by
  intro id listed
  obtain ⟨step, inside, rfl⟩ := List.mem_map.mp listed
  obtain ⟨known, owned⟩ := walkNames_steps member walked step inside
  exact filled _ known _ owned

theorem walkIdsFrom_ids {id : Text} (walked : schema.walkIdsFrom above owner id ids = .ok route) :
    route.ids = id :: ids := by
  induction ids generalizing owner id route above with
  | nil =>
    rw [walkIdsFrom] at walked
    split at walked
    · cases walked
    · rename_i field found
      cases walked
      have same : field.id = id := by simpa using List.find?_some found
      simp [Route.ids, Route.steps, same]
  | cons next ids ih =>
    rw [walkIdsFrom] at walked
    split at walked
    · cases walked
    · rename_i field found
      obtain ⟨target, -, walked⟩ := bind_eq_ok.mp walked
      obtain ⟨inner, deeper, same⟩ := bind_eq_ok.mp walked
      obtain rfl := pure_eq_ok.mp same
      have first : field.id = id := by simpa using List.find?_some found
      simpa [Route.ids, Route.steps, Route.extend, first] using ih deeper

theorem walkIds_ids (walked : schema.walkIds base ids = .ok (path, route)) : route.ids = ids := by
  cases ids with
  | nil => cases walked
  | cons id ids =>
    obtain ⟨found, byIds, same⟩ := bind_eq_ok.mp walked
    obtain ⟨-, rfl⟩ := Prod.mk.inj (pure_eq_ok.mp same)
    exact walkIdsFrom_ids byIds

theorem Named.path_ne_nil (named : schema.Named) (member : base ∈ schema.types)
    (walked : schema.walk base path = .ok route) : path ≠ [] := by
  rintro rfl
  change schema.walkNames [] base [] [] = .ok route at walked
  have unnamed : [] ∈ route.names := by simp [walkNames_names walked]
  obtain ⟨step, inside, empty⟩ := List.mem_map.mp unnamed
  obtain ⟨known, owned⟩ := walkNames_steps member walked step inside
  exact named.filled _ known _ owned empty

end Walk

/-- The names, ids and labels that documents have from the schema are valid UTF-8. -/
structure IsUtf8 (schema : Schema) : Prop where
  types : ∀ type ∈ schema.types, type.id.isUtf8 = true ∧ type.name.isUtf8 = true
  fields : ∀ type ∈ schema.types, ∀ field ∈ type.fields,
    field.id.isUtf8 = true ∧ field.name.isUtf8 = true ∧ field.label.isUtf8 = true

namespace IsUtf8

variable (valid : schema.IsUtf8) (member : base ∈ schema.types)
  (walked : schema.walk base path = .ok route)

include valid member walked

theorem isUtf8_step : ∀ step ∈ route.steps,
    step.field.id.isUtf8 = true ∧ step.field.name.isUtf8 = true ∧ step.field.label.isUtf8 = true := by
  intro step inside
  obtain ⟨known, owned⟩ := walkNames_steps member walked step inside
  exact valid.fields _ known _ owned

theorem isUtf8_path : path.isUtf8 = true := by
  rw [← join_splitFirst path, ← walkNames_names walked]
  apply Text.isUtf8_join (Text.isUtf8_ofString ".")
  intro name listed
  obtain ⟨step, inside, rfl⟩ := List.mem_map.mp listed
  exact (valid.isUtf8_step member walked step inside).2.1

theorem isUtf8_ids : ∀ id ∈ route.ids, id.isUtf8 = true := by
  intro id listed
  obtain ⟨step, inside, rfl⟩ := List.mem_map.mp listed
  exact (valid.isUtf8_step member walked step inside).1

theorem isUtf8_label : route.leaf.label.isUtf8 = true :=
  (valid.isUtf8_step member walked route.last (by simp [Route.steps])).2.2

end IsUtf8

/-- The ids along a path are as they should be. -/
def IdsAlong (schema : Schema) (good : PropertyId → Prop) (type : RecordType) (path : Text) : Prop :=
  ∀ route, schema.walk type path = .ok route → good route.ids

/-- So are those along all paths of a restriction, those in its subqueries included. -/
structure IdsOfTree (schema : Schema) (good : PropertyId → Prop) (type : RecordType)
    (restriction : Restriction) : Prop where
  paths : ∀ path ∈ restriction.properties, schema.IdsAlong good type path
  subqueries : ∀ query ∈ restriction.subqueries, ∀ path ∈ query.paths, schema.IdsAlong good query.type path

/-- So are those along all paths of a query and of the queries in it. -/
def IdsOfQuery (schema : Schema) (good : PropertyId → Prop) (criteria : Criteria) : Prop :=
  ∀ query ∈ criteria :: criteria.subqueries, ∀ path ∈ query.paths, schema.IdsAlong good query.type path

section Paths

variable {good : PropertyId → Prop} {type : RecordType}

theorem forall_properties_iff {restriction : Restriction}
    (visits : restriction.visit (fun _ => true) = [restriction])
    (named : restriction.property? = some path) :
    (∀ other ∈ restriction.properties, schema.IdsAlong good type other) ↔
      schema.IdsAlong good type path := by
  simp only [Restriction.mem_properties_leaf visits named, forall_eq]

theorem idsOfTree_leaf {restriction : Restriction}
    (visits : restriction.visit (fun _ => true) = [restriction])
    (named : restriction.property? = some path) (without : restriction.subqueries = []) :
    schema.IdsOfTree good type restriction ↔ schema.IdsAlong good type path := by
  rw [← forall_properties_iff visits named]
  constructor
  · exact IdsOfTree.paths
  · intro paths
    exact ⟨paths, by simp [without]⟩

theorem idsOfTree_inQuery {query : Criteria} : schema.IdsOfTree good type (.inQuery path query) ↔
    schema.IdsAlong good type path ∧ schema.IdsOfQuery good query := by
  have own : (∀ other ∈ (Restriction.inQuery path query).properties, schema.IdsAlong good type other) ↔
      schema.IdsAlong good type path := forall_properties_iff rfl rfl
  constructor
  · rintro ⟨paths, nested⟩
    exact ⟨own.mp paths, nested⟩
  · rintro ⟨along, nested⟩
    exact ⟨own.mpr along, nested⟩

theorem idsOfTree_junction {children : List Restriction} :
    schema.IdsOfTree good type (.junction connective children) ↔
      ∀ child ∈ children, schema.IdsOfTree good type child := by
  constructor
  · rintro ⟨paths, subqueries⟩ child inside
    refine ⟨?_, ?_⟩
    · intro path member
      exact paths path (Restriction.mem_properties_junction.mpr ⟨child, inside, member⟩)
    · intro query member
      exact subqueries query (Restriction.mem_subqueriesAll_iff.mpr ⟨child, inside, member⟩)
  · intro each
    refine ⟨?_, ?_⟩
    · intro path member
      obtain ⟨child, inside, own⟩ := Restriction.mem_properties_junction.mp member
      exact (each child inside).paths path own
    · intro query member
      obtain ⟨child, inside, own⟩ := Restriction.mem_subqueriesAll_iff.mp member
      exact (each child inside).subqueries query own

theorem idsOfTree_not {child : Restriction} :
    schema.IdsOfTree good type (.not child) ↔ schema.IdsOfTree good type child := by
  constructor
  · rintro ⟨paths, subqueries⟩
    exact ⟨fun path member => paths path (Restriction.mem_properties_not.mpr member), subqueries⟩
  · rintro ⟨paths, subqueries⟩
    exact ⟨fun path member => paths path (Restriction.mem_properties_not.mp member), subqueries⟩

theorem idsOfQuery_iff {criteria : Criteria} : schema.IdsOfQuery good criteria ↔
    (∀ path ∈ criteria.properties, schema.IdsAlong good criteria.type path) ∧
      (∀ call ∈ criteria.aggregates, schema.IdsAlong good criteria.type call.property) ∧
      (∀ path ∈ criteria.groupBy, schema.IdsAlong good criteria.type path) ∧
      (∀ key ∈ criteria.orderBy, schema.IdsAlong good criteria.type key.property) ∧
      ∀ restriction ∈ criteria.restriction, schema.IdsOfTree good criteria.type restriction := by
  constructor
  · intro all
    obtain ⟨own, nested⟩ := List.forall_mem_cons.mp all
    simp only [Criteria.paths, List.forall_mem_append, List.forall_mem_map] at own
    obtain ⟨⟨⟨⟨properties, calls⟩, tree⟩, groups⟩, orders⟩ := own
    refine ⟨properties, calls, groups, orders, ?_⟩
    intro restriction given
    refine ⟨?_, ?_⟩
    · rw [Option.mem_def.mp given] at tree
      exact tree
    · intro query inside
      exact nested query (Criteria.mem_subqueries_iff.mpr ⟨restriction, given, inside⟩)
  · rintro ⟨properties, calls, groups, orders, trees⟩
    refine List.forall_mem_cons.mpr ⟨?_, ?_⟩
    · simp only [Criteria.paths, List.forall_mem_append, List.forall_mem_map]
      refine ⟨⟨⟨⟨properties, calls⟩, ?_⟩, groups⟩, orders⟩
      cases given : criteria.restriction with
      | none => exact List.forall_mem_nil _
      | some restriction => exact (trees restriction given).paths
    · intro query member
      obtain ⟨restriction, given, inside⟩ := Criteria.mem_subqueries_iff.mp member
      exact (trees restriction given).subqueries query inside

end Paths
end Schema
end RecordQuery
