import RecordQuery.Proofs.Success
import RecordQuery.Schema.Catalog
import RecordQuery.Schema.Path

namespace RecordQuery

theorem find?_of_key_nodup {key : α → Text} {values : List α}
    (distinct : (values.map key).Nodup)
    (member : value ∈ values) : values.find? (key · == key value) = some value := by
  induction values with
  | nil => cases member
  | cons first rest ih =>
    obtain ⟨fresh, distinct⟩ := List.nodup_cons.mp distinct
    rcases List.mem_cons.mp member with rfl | later
    · simp
    · have different : key first ≠ key value := by
        intro same
        exact fresh (same ▸ List.mem_map_of_mem later)
      simp [different, ih distinct later]

theorem nodup_key_concat {key : α → Text} {values : List α} (distinct : (values.map key).Nodup)
    (fresh : ∀ other ∈ values, key other ≠ key value) : ((values ++ [value]).map key).Nodup := by
  rw [List.map_append, List.map_singleton, List.nodup_append]
  refine ⟨distinct, by simp, ?_⟩
  intro name member last single
  obtain ⟨other, before, rfl⟩ := List.mem_map.mp member
  obtain rfl := List.mem_singleton.mp single
  exact fresh other before

namespace Schema

variable {schema : Schema} {declared : List RecordType}

structure Identified (schema : Schema) : Prop where
  named : ∀ type ∈ schema.types, type.name ≠ []
  types : (schema.types.map (·.id)).Nodup
  fields : ∀ type ∈ schema.types, (type.fields.map (·.id)).Nodup

theorem Identified.typeById? (identified : schema.Identified) (member : type ∈ schema.types) :
    schema.typeById? type.id = some type :=
  find?_of_key_nodup identified.types member

theorem Identified.fieldById? (identified : schema.Identified) (member : type ∈ schema.types)
    (owned : field ∈ type.fields) : type.fieldById? field.id = some field :=
  find?_of_key_nodup (identified.fields type member) owned

section Build

/-- What holds at first, and of every type as it is completed, holds of all types in the end. -/
theorem accept_induction {motive : List RecordType → Prop} (accepts : accept accepted declared = .ok all)
    (start : motive accepted)
    (step : ∀ accepted, ∀ type ∈ declared, motive accepted → type.name ≠ [] →
      (∀ other ∈ accepted, other.name ≠ type.name) → (∀ other ∈ accepted, other.id ≠ type.complete.id) →
      motive (accepted ++ [type.complete])) : motive all := by
  induction declared generalizing accepted with
  | nil =>
    cases accepts
    exact start
  | cons type declared ih =>
    rw [accept] at accepts
    split at accepts
    · cases accepts
    rename_i named
    split at accepts
    · cases accepts
    rename_i otherName
    simp only at accepts
    split at accepts
    · cases accepts
    rename_i otherId
    apply ih accepts
    · apply step accepted type (.head _) start (by simpa using named)
      · simpa using otherName
      · simpa using otherId
    · intro before later member
      exact step before later (.tail _ member)

theorem accept_identifies (accepts : accept [] declared = .ok all) :
    (∀ type ∈ all, type.name ≠ []) ∧ (all.map (·.id)).Nodup := by
  refine accept_induction (motive := fun all => (∀ type ∈ all, type.name ≠ []) ∧ (all.map (·.id)).Nodup)
    accepts (by simp) ?_
  intro before type _ ⟨named, distinct⟩ filled _ fresh
  exact ⟨List.forall_mem_append.mpr ⟨named, List.forall_mem_singleton.mpr filled⟩,
    nodup_key_concat distinct fresh⟩

theorem checkFields_distinct (checked : checkFields schema owner before fields = .ok ())
    (distinct : (before.map (·.id)).Nodup) : ((before ++ fields).map (·.id)).Nodup := by
  induction fields generalizing before with
  | nil => simpa using distinct
  | cons field fields ih =>
    rw [checkFields] at checked
    obtain ⟨-, checked⟩ := guard_eq_ok.mp checked
    obtain ⟨unique, checked⟩ := guard_eq_ok.mp checked
    obtain ⟨_, -, checked⟩ := bind_eq_ok.mp checked
    have longer : ((before ++ [field]).map (·.id)).Nodup := by
      apply nodup_key_concat distinct
      intro other earlier same
      exact unique (List.any_eq_true.mpr ⟨other, earlier, by simp [same]⟩)
    simpa using ih checked longer

theorem checkTypes_eq_ok (checked : checkTypes schema declared = .ok ()) (member : type ∈ declared) :
    checkType schema type = .ok () := by
  induction declared with
  | nil => cases member
  | cons first declared ih =>
    rw [checkTypes] at checked
    obtain ⟨_, head, rest⟩ := bind_eq_ok.mp checked
    rcases List.mem_cons.mp member with rfl | later
    · exact head
    · exact ih rest later

/-- What holds of all fields as they are completed holds of the fields of the schema. -/
theorem fields_of_build {good : Field → Prop} (built : build declared = .ok schema)
    (given : ∀ type ∈ declared, ∀ field ∈ type.fields, good (field.complete type.name))
    (added : ∀ owner, good (Field.complete owner { name := idName, kind := .id })) :
    ∀ type ∈ schema.types, ∀ field ∈ type.fields, good field := by
  obtain ⟨all, accepts, built⟩ := bind_eq_ok.mp built
  obtain ⟨_, -, same⟩ := bind_eq_ok.mp built
  obtain rfl := pure_eq_ok.mp same
  refine accept_induction (motive := fun all => ∀ type ∈ all, ∀ field ∈ type.fields, good field)
    accepts (List.forall_mem_nil _) ?_
  intro before type member holds _ _ _
  refine List.forall_mem_append.mpr ⟨holds, List.forall_mem_singleton.mpr ?_⟩
  rw [RecordType.complete, List.forall_mem_map]
  split
  · exact given type member
  · exact List.forall_mem_cons.mpr ⟨added type.name, given type member⟩

theorem identified_of_build (built : build declared = .ok schema) : schema.Identified := by
  obtain ⟨all, accepts, built⟩ := bind_eq_ok.mp built
  obtain ⟨_, checked, same⟩ := bind_eq_ok.mp built
  obtain rfl := pure_eq_ok.mp same
  obtain ⟨named, distinct⟩ := accept_identifies accepts
  refine ⟨named, distinct, ?_⟩
  intro type member
  have fields := checkTypes_eq_ok checked member
  obtain ⟨_, fields, -⟩ := bind_eq_ok.mp fields
  simpa using checkFields_distinct fields (by simp)

end Build

section Walk

theorem follow_eq_ok (leads : schema.follow owner field path = .ok target) (other : Text) :
    schema.follow owner field other = .ok target ∧ target ∈ schema.types := by
  rw [follow] at leads ⊢
  split at leads
  · rename_i relationship
    rw [if_pos relationship]
    cases found : schema.typeNamed? field.target with
    | none =>
      rw [found] at leads
      cases leads
    | some type =>
      rw [found] at leads
      cases leads
      exact ⟨rfl, List.mem_of_find?_eq_some found⟩
  · cases leads

theorem walkNames_names (walked : schema.walkNames path owner name names = .ok route) :
    route.names = name :: names := by
  induction names generalizing owner name route with
  | nil =>
    rw [walkNames] at walked
    split at walked
    · cases walked
    · rename_i field found
      cases walked
      have same : field.name = name := by simpa using List.find?_some found
      simp [Route.names, Route.steps, same]
  | cons next names ih =>
    rw [walkNames] at walked
    split at walked
    · cases walked
    · rename_i field found
      obtain ⟨target, -, walked⟩ := bind_eq_ok.mp walked
      obtain ⟨inner, deeper, same⟩ := bind_eq_ok.mp walked
      obtain rfl := pure_eq_ok.mp same
      have named : field.name = name := by simpa using List.find?_some found
      have rest := ih deeper
      simpa [Route.names, Route.steps, Route.extend, named] using rest

/-- The ids along a path lead the same way. -/
theorem Identified.walkIdsFrom (identified : schema.Identified) (member : owner ∈ schema.types)
    (walked : schema.walkNames path owner name names = .ok route) (above : List Text) :
    ∃ id ids, route.ids = id :: ids ∧ schema.walkIdsFrom above owner id ids = .ok route := by
  induction names generalizing owner name route above with
  | nil =>
    rw [walkNames] at walked
    split at walked
    · cases walked
    · rename_i field found
      cases walked
      refine ⟨field.id, [], rfl, ?_⟩
      have byId := identified.fieldById? member (List.mem_of_find?_eq_some found)
      rw [Schema.walkIdsFrom, byId]
  | cons next names ih =>
    rw [walkNames] at walked
    split at walked
    · cases walked
    · rename_i field found
      obtain ⟨target, leads, walked⟩ := bind_eq_ok.mp walked
      obtain ⟨inner, deeper, same⟩ := bind_eq_ok.mp walked
      obtain rfl := pure_eq_ok.mp same
      obtain ⟨follows, known⟩ := follow_eq_ok leads (Text.join "." (above ++ [field.name]))
      obtain ⟨id, ids, listed, byIds⟩ := ih known deeper (above ++ [field.name])
      refine ⟨field.id, id :: ids, ?_, ?_⟩
      · simpa [Route.ids, Route.steps, Route.extend] using listed
      · have byId := identified.fieldById? member (List.mem_of_find?_eq_some found)
        rw [Schema.walkIdsFrom, byId]
        exact bind_eq_ok.mpr ⟨target, follows, bind_eq_ok.mpr ⟨inner, byIds, rfl⟩⟩

theorem join_splitFirst (path : Text) :
    Text.join "." ((path.splitFirst (Text.ascii '.')).1 :: (path.splitFirst (Text.ascii '.')).2) =
      path := by
  induction path with
  | nil => rfl
  | cons byte path ih =>
    rw [Text.splitFirst]
    generalize Text.splitFirst (Text.ascii '.') path = split at ih ⊢
    simp only [Text.join] at ih ⊢
    by_cases dot : byte = Text.ascii '.'
    · simp only [dot, ↓reduceIte, List.intercalate_cons_cons, ih]
      rfl
    · simp only [dot, ↓reduceIte, List.intercalate_cons_cons_left, ih]

theorem Identified.walkIds (identified : schema.Identified) (member : base ∈ schema.types)
    (walked : schema.walk base path = .ok route) :
    schema.walkIds base route.ids = .ok (path, route) := by
  obtain ⟨id, ids, listed, byIds⟩ := identified.walkIdsFrom member walked []
  rw [listed, Schema.walkIds]
  refine bind_eq_ok.mpr ⟨route, byIds, ?_⟩
  rw [walkNames_names walked, join_splitFirst]
  rfl

end Walk
end Schema
end RecordQuery
