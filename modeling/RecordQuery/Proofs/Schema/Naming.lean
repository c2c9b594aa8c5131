import RecordQuery.Proofs.Schema.Identity

namespace RecordQuery

theorem splitFirst_of_not_mem {part : Text} (without : separator ∉ part) :
    Text.splitFirst separator part = (part, []) := by
  induction part with
  | nil => rfl
  | cons byte part ih =>
    simp only [List.mem_cons, not_or] at without
    rw [Text.splitFirst, ih without.2]
    simp [Ne.symm without.1]

theorem splitFirst_append {part : Text} (without : separator ∉ part) (rest : Text) :
    Text.splitFirst separator (part ++ separator :: rest) = (part, rest.splitOn separator) := by
  induction part with
  | nil => simp [Text.splitFirst, Text.splitOn]
  | cons byte part ih =>
    simp only [List.mem_cons, not_or] at without
    rw [List.cons_append, Text.splitFirst, ih without.2]
    simp [Ne.symm without.1]

theorem not_mem_of_mem_splitOn (separator : UInt8) (t : Text) :
    ∀ part ∈ t.splitOn separator, separator ∉ part := by
  induction t with
  | nil => simp [Text.splitOn, Text.splitFirst]
  | cons byte t ih =>
    simp only [Text.splitOn, Text.splitFirst] at ih ⊢
    generalize Text.splitFirst separator t = split at ih ⊢
    obtain ⟨first, others⟩ := List.forall_mem_cons.mp ih
    by_cases separates : byte = separator
    · simpa [separates] using ih
    · simp only [separates, ↓reduceIte]
      exact List.forall_mem_cons.mpr ⟨by simp [Ne.symm separates, first], others⟩

/-- Parts without dots are what a dotted path falls into. -/
theorem splitFirst_join {part : Text} {parts : List Text} (first : Text.ascii '.' ∉ part)
    (rest : ∀ other ∈ parts, Text.ascii '.' ∉ other) :
    Text.splitFirst (Text.ascii '.') (Text.join "." (part :: parts)) = (part, parts) := by
  induction parts generalizing part with
  | nil =>
    rw [Text.join, List.intercalate_singleton]
    exact splitFirst_of_not_mem first
  | cons next parts ih =>
    obtain ⟨nextPart, others⟩ := List.forall_mem_cons.mp rest
    have dotted : Text.join "." (part :: next :: parts) =
        part ++ Text.ascii '.' :: Text.join "." (next :: parts) := by
      simp only [Text.join, List.intercalate_cons_cons, List.append_assoc]
      rfl
    rw [dotted, splitFirst_append first, Text.splitOn, ih nextPart others]

namespace Schema

variable {schema : Schema} {declared : List RecordType}

structure Named (schema : Schema) : Prop where
  distinct : ∀ type ∈ schema.types, (type.fields.map (·.name)).Nodup
  filled : ∀ type ∈ schema.types, ∀ field ∈ type.fields, field.name ≠ []
  undotted : ∀ type ∈ schema.types, ∀ field ∈ type.fields, Text.ascii '.' ∉ field.name

theorem Named.field? (named : schema.Named) (member : type ∈ schema.types)
    (owned : field ∈ type.fields) : type.field? field.name = some field :=
  find?_of_key_nodup (named.distinct type member) owned

section Build

theorem checkFields_names (checked : checkFields schema owner before fields = .ok ())
    (distinct : (before.map (·.name)).Nodup) :
    ((before ++ fields).map (·.name)).Nodup ∧
      ∀ field ∈ fields, field.name ≠ [] ∧ Text.ascii '.' ∉ field.name := by
  induction fields generalizing before with
  | nil => simpa using distinct
  | cons field fields ih =>
    rw [checkFields] at checked
    obtain ⟨word, checked⟩ := guard_eq_ok.mp checked
    obtain ⟨unique, checked⟩ := guard_eq_ok.mp checked
    obtain ⟨_, -, checked⟩ := bind_eq_ok.mp checked
    have longer : ((before ++ [field]).map (·.name)).Nodup := by
      apply nodup_key_concat distinct
      intro other earlier same
      exact unique (List.any_eq_true.mpr ⟨other, earlier, by simp [same]⟩)
    obtain ⟨names, undotted⟩ := ih checked longer
    refine ⟨by simpa using names, List.forall_mem_cons.mpr ⟨⟨?_, ?_⟩, undotted⟩⟩
    · intro empty
      exact word (by simp [empty])
    · intro dotted
      exact word (by simp [dotted])

theorem named_of_build (built : build declared = .ok schema) : schema.Named := by
  obtain ⟨all, -, built⟩ := bind_eq_ok.mp built
  obtain ⟨_, checked, same⟩ := bind_eq_ok.mp built
  obtain rfl := pure_eq_ok.mp same
  have fields : ∀ type ∈ all, (type.fields.map (·.name)).Nodup ∧
      ∀ field ∈ type.fields, field.name ≠ [] ∧ Text.ascii '.' ∉ field.name := by
    intro type member
    obtain ⟨_, checked, -⟩ := bind_eq_ok.mp (checkTypes_eq_ok checked member)
    simpa using checkFields_names checked (by simp)
  refine ⟨fun type member => (fields type member).1, ?_, ?_⟩
  · intro type member field owned
    exact ((fields type member).2 field owned).1
  · intro type member field owned
    exact ((fields type member).2 field owned).2

end Build

section Walk

/-- The names along an id path lead the same way, and have no dots. -/
theorem Named.walkNames {id : Text} (named : schema.Named) (member : owner ∈ schema.types)
    (walked : schema.walkIdsFrom above owner id ids = .ok route) (path : Text) :
    ∃ name names, route.names = name :: names ∧ schema.walkNames path owner name names = .ok route ∧
      ∀ part ∈ name :: names, Text.ascii '.' ∉ part := by
  induction ids generalizing owner id route above with
  | nil =>
    rw [walkIdsFrom] at walked
    split at walked
    · cases walked
    · rename_i field found
      cases walked
      have owned := List.mem_of_find?_eq_some found
      refine ⟨field.name, [], rfl, ?_, List.forall_mem_singleton.mpr (named.undotted _ member _ owned)⟩
      rw [Schema.walkNames, named.field? member owned]
  | cons next ids ih =>
    rw [walkIdsFrom] at walked
    split at walked
    · cases walked
    · rename_i field found
      have owned := List.mem_of_find?_eq_some found
      obtain ⟨target, leads, walked⟩ := bind_eq_ok.mp walked
      obtain ⟨inner, deeper, same⟩ := bind_eq_ok.mp walked
      obtain rfl := pure_eq_ok.mp same
      obtain ⟨follows, known⟩ := follow_eq_ok leads path
      obtain ⟨name, names, listed, byNames, undotted⟩ := ih known deeper
      refine ⟨field.name, name :: names, ?_, ?_,
        List.forall_mem_cons.mpr ⟨named.undotted _ member _ owned, undotted⟩⟩
      · simpa [Route.names, Route.steps, Route.extend] using listed
      · rw [Schema.walkNames, named.field? member owned]
        exact bind_eq_ok.mpr ⟨target, follows, bind_eq_ok.mpr ⟨inner, byNames, rfl⟩⟩

theorem Named.walk (named : schema.Named) (member : base ∈ schema.types)
    (walked : schema.walkIds base ids = .ok (path, route)) : schema.walk base path = .ok route := by
  cases ids with
  | nil => cases walked
  | cons id ids =>
    obtain ⟨found, byIds, same⟩ := bind_eq_ok.mp walked
    obtain ⟨rfl, rfl⟩ := Prod.mk.inj (pure_eq_ok.mp same)
    obtain ⟨name, names, listed, byNames, undotted⟩ :=
      named.walkNames member byIds (Text.join "." found.names)
    obtain ⟨first, rest⟩ := List.forall_mem_cons.mp undotted
    rw [Schema.walk, listed, splitFirst_join first rest, ← listed]
    exact byNames

end Walk
end Schema
end RecordQuery
