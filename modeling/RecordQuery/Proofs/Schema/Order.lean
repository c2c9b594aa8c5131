import Mathlib.Data.List.Nodup
import RecordQuery.Proofs.Schema.Ids

/-! Declarations make the same schema in any order, and a schema is made of itself. A type is completed
without a look at the others, and the checks ask for other types by name only, so it does not matter which
one is seen first; and what is complete stays as it is. -/
namespace RecordQuery

theorem Text.orElse_orElse (t default : Text) : (t.orElse default).orElse default = t.orElse default := by
  unfold orElse
  split <;> simp_all

theorem Field.complete_complete (owner : Text) (field : Field) :
    (field.complete owner).complete owner = field.complete owner := by
  simp only [complete, Text.orElse_orElse]
  split <;> simp only [Text.orElse_orElse]

@[simp] theorem RecordType.complete_name (type : RecordType) : type.complete.name = type.name := rfl

theorem RecordType.idField?_complete (type : RecordType) : ∃ field, type.complete.idField? = some field := by
  have kept : ((fun field => field.name == idName) ∘ Field.complete type.name) =
      fun field : Field => field.name == idName := rfl
  simp only [idField?, field?, complete, List.find?_map, kept]
  cases found : type.fields.find? (·.name == idName) with
  | some field => simp [found]
  | none => simp

theorem RecordType.complete_complete (type : RecordType) : type.complete.complete = type.complete := by
  obtain ⟨field, present⟩ := type.idField?_complete
  have fields : type.complete.fields.map (·.complete type.name) = type.complete.fields := by
    rw [complete, List.map_map]
    exact List.map_congr_left fun field _ => field.complete_complete type.name
  rw [complete.eq_def type.complete]
  simp only [present]
  change RecordType.mk (Text.orElse _ _) _ (Text.orElse _ _) (Text.orElse _ _) _
    (type.complete.fields.map (·.complete type.name)) = _
  rw [fields]
  simp only [complete, Text.orElse_orElse, shortName]

theorem find?_eq_of_perm {key : α → Text} {values others : List α} (perm : values.Perm others)
    (distinct : (values.map key).Nodup) (name : Text) :
    values.find? (key · == name) = others.find? (key · == name) := by
  cases found : values.find? (key · == name) with
  | none =>
    refine (List.find?_eq_none.mpr ?_).symm
    intro value member
    exact List.find?_eq_none.mp found value (perm.mem_iff.mpr member)
  | some value =>
    have same : key value = name := by simpa using List.find?_some found
    have member := perm.mem_iff.mp (List.mem_of_find?_eq_some found)
    rw [← same, find?_of_key_nodup ((perm.map key).nodup_iff.mp distinct) member]

namespace Schema

variable {schema other : Schema} {declared types others : List RecordType}

/-- Every type has a name, and no two have the same name or the same id. -/
structure Distinguished (types : List RecordType) : Prop where
  named : ∀ type ∈ types, type.name ≠ []
  names : (types.map (·.name)).Nodup
  ids : (types.map (·.id)).Nodup

theorem Distinguished.of_perm (distinct : Distinguished types) (perm : types.Perm others) :
    Distinguished others where
  named type member := distinct.named type (perm.mem_iff.mpr member)
  names := (perm.map _).nodup_iff.mp distinct.names
  ids := (perm.map _).nodup_iff.mp distinct.ids

theorem distinguished_concat_iff (distinct : Distinguished types) :
    Distinguished (types ++ [type]) ↔
      type.name ≠ [] ∧ (∀ other ∈ types, other.name ≠ type.name) ∧ ∀ other ∈ types, other.id ≠ type.id := by
  constructor
  · intro longer
    have apart : ∀ {key : RecordType → Text}, ((types ++ [type]).map key).Nodup →
        ∀ other ∈ types, key other ≠ key type := by
      intro key nodup other member
      rw [List.map_append, List.nodup_append] at nodup
      exact nodup.2.2 _ (List.mem_map_of_mem member) _ (.head _)
    exact ⟨longer.named type (by simp), apart longer.names, apart longer.ids⟩
  · rintro ⟨filled, names, ids⟩
    exact ⟨List.forall_mem_append.mpr ⟨distinct.named, List.forall_mem_singleton.mpr filled⟩,
      nodup_key_concat distinct.names names, nodup_key_concat distinct.ids ids⟩

theorem Distinguished.of_append (distinct : Distinguished (types ++ others)) : Distinguished types where
  named type member := distinct.named type (List.mem_append_left _ member)
  names := (List.nodup_append.mp (List.map_append ▸ distinct.names)).1
  ids := (List.nodup_append.mp (List.map_append ▸ distinct.ids)).1

/-- The types are accepted if, once completed, they can be told apart. -/
theorem accept_eq_ok_iff (distinct : Distinguished types) : accept types declared = .ok all ↔
    all = types ++ declared.map (·.complete) ∧ Distinguished all := by
  induction declared generalizing types with
  | nil =>
    rw [accept, List.map_nil, List.append_nil, Except.ok.injEq, eq_comm]
    exact ⟨fun same => ⟨same, same ▸ distinct⟩, fun both => both.1⟩
  | cons type declared ih =>
    have split : types ++ (type :: declared).map (·.complete) =
        types ++ [type.complete] ++ declared.map (·.complete) := by simp
    by_cases fits : Distinguished (types ++ [type.complete])
    · obtain ⟨filled, names, ids⟩ := (distinguished_concat_iff distinct).mp fits
      have passes : accept types (type :: declared) = accept (types ++ [type.complete]) declared := by
        rw [accept, if_neg (by simpa using filled), if_neg (by simpa using names)]
        exact if_neg (by simpa using ids)
      rw [passes, ih fits, split]
    · refine iff_of_false ?_ ?_
      · intro accepts
        apply fits
        rw [accept] at accepts
        split at accepts
        · cases accepts
        rename_i filled
        split at accepts
        · cases accepts
        rename_i names
        simp only at accepts
        split at accepts
        · cases accepts
        rename_i ids
        exact (distinguished_concat_iff distinct).mpr
          ⟨by simpa using filled, by simpa using names, by simpa using ids⟩
      · rintro ⟨rfl, whole⟩
        exact fits (Distinguished.of_append (split ▸ whole))

theorem checkTypes_eq_ok_iff : schema.checkTypes types = .ok () ↔
    ∀ type ∈ types, schema.checkType type = .ok () := by
  refine ⟨fun checked _ member => checkTypes_eq_ok checked member, ?_⟩
  intro each
  induction types with
  | nil => rfl
  | cons type types ih =>
    obtain ⟨first, rest⟩ := List.forall_mem_cons.mp each
    exact bind_eq_ok.mpr ⟨(), first, ih rest⟩

/-- A schema is built if its types, once completed, can be told apart and pass the checks. -/
theorem build_eq_ok_iff : build declared = .ok schema ↔ schema.types = declared.map (·.complete) ∧
    Distinguished schema.types ∧ ∀ type ∈ schema.types, schema.checkType type = .ok () := by
  have nothing : Distinguished [] := ⟨List.forall_mem_nil _, .nil, .nil⟩
  constructor
  · intro built
    obtain ⟨all, accepts, built⟩ := bind_eq_ok.mp built
    obtain ⟨_, checked, same⟩ := bind_eq_ok.mp built
    obtain rfl := pure_eq_ok.mp same
    obtain ⟨completed, distinct⟩ := (accept_eq_ok_iff nothing).mp accepts
    exact ⟨completed, distinct, checkTypes_eq_ok_iff.mp checked⟩
  · rintro ⟨completed, distinct, checked⟩
    refine bind_eq_ok.mpr ⟨schema.types, (accept_eq_ok_iff nothing).mpr ⟨completed, distinct⟩, ?_⟩
    exact bind_eq_ok.mpr ⟨(), checkTypes_eq_ok_iff.mpr checked, rfl⟩

section Names

variable (same : ∀ name, schema.typeNamed? name = other.typeNamed? name)

include same

theorem checkKind_eq_of_names (owner : RecordType) (field : Field) :
    schema.checkKind owner field = other.checkKind owner field := by
  simp only [checkKind, same]

theorem checkFields_eq_of_names (owner : RecordType) (before fields : List Field) :
    schema.checkFields owner before fields = other.checkFields owner before fields := by
  induction fields generalizing before with
  | nil => rfl
  | cons field fields ih => rw [checkFields, checkFields, checkKind_eq_of_names same, ih]

/-- The checks ask for types by name and for nothing else. -/
theorem checkType_eq_of_names (type : RecordType) : schema.checkType type = other.checkType type := by
  rw [checkType, checkType, checkFields_eq_of_names same]

end Names

theorem sorted_perm (schema : Schema) : schema.sorted.Perm schema.types := List.mergeSort_perm _ _

/-- Types that can be told apart by their names have one order. -/
theorem sorted_eq_of_perm (perm : schema.types.Perm other.types) (names : (schema.types.map (·.name)).Nodup) :
    schema.sorted = other.sorted := by
  have trans : ∀ a b c : RecordType, a.name.le b.name = true → b.name.le c.name = true →
      a.name.le c.name = true := by
    simp only [Text.le, decide_eq_true_eq]
    exact fun _ _ _ => List.le_trans
  have total : ∀ a b : RecordType, (a.name.le b.name || b.name.le a.name) = true := by
    intro a b
    simpa [Text.le] using List.le_total a.name b.name
  have sorted := List.pairwise_mergeSort trans total
  have both := schema.sorted_perm.trans (perm.trans other.sorted_perm.symm)
  refine List.Perm.eq_of_pairwise ?_ (sorted schema.types) (sorted other.types) both
  intro first second member member' le ge
  simp only [Text.le, decide_eq_true_eq] at le ge
  apply List.inj_on_of_nodup_map names (schema.sorted_perm.mem_iff.mp member)
  · exact perm.mem_iff.mpr (other.sorted_perm.mem_iff.mp member')
  · exact List.le_antisymm le ge

theorem build_of_perm (perm : types.Perm others) (built : build types = .ok schema) :
    build others = .ok ⟨others.map (·.complete)⟩ := by
  obtain ⟨completed, distinct, checked⟩ := build_eq_ok_iff.mp built
  have moved : schema.types.Perm (others.map (·.complete)) := completed ▸ perm.map _
  have same := find?_eq_of_perm moved distinct.names
  refine build_eq_ok_iff.mpr ⟨rfl, distinct.of_perm moved, ?_⟩
  intro type member
  rw [← checkType_eq_of_names same]
  exact checked type (moved.mem_iff.mpr member)

/-- What a schema is made of is complete. -/
theorem complete_of_build (built : build declared = .ok schema) (member : type ∈ schema.types) :
    type.complete = type := by
  obtain ⟨completed, -, -⟩ := build_eq_ok_iff.mp built
  rw [completed] at member
  obtain ⟨source, -, rfl⟩ := List.mem_map.mp member
  exact source.complete_complete

theorem map_complete (complete : ∀ type ∈ types, type.complete = type) : types.map (·.complete) = types :=
  (List.map_congr_left complete).trans (List.map_id' types)

/-- It makes no difference whether some of the types have been completed before. -/
theorem accept_touched (touched : List.Forall₂ (fun type other => other = type ∨ other = type.complete) declared others)
    (accepted : List RecordType) : accept accepted others = accept accepted declared := by
  induction touched generalizing accepted with
  | nil => rfl
  | @cons type other declared others state _ ih =>
    have same : other.name = type.name ∧ other.complete = type.complete := by
      rcases state with rfl | rfl
      · exact ⟨rfl, rfl⟩
      · exact ⟨rfl, type.complete_complete⟩
    simp only [accept, same.1, same.2, ih]

/-- Declarations in another order are accepted or refused alike, and if they are accepted, types are found
by name and by id, and listed, as before. What an accepted schema is made of is accepted again and left as
it is; and it does not matter whether some of the types have been completed before, in an attempt that may
have failed. -/
theorem same_schema_of_perm (types others : List RecordType) (perm : types.Perm others) :
    ((∃ schema, build types = .ok schema) ↔ ∃ schema, build others = .ok schema) ∧
    (∀ schema other, build types = .ok schema → build others = .ok other →
      (∀ name, schema.typeNamed? name = other.typeNamed? name) ∧
      (∀ id, schema.typeById? id = other.typeById? id) ∧ schema.sorted = other.sorted) ∧
    (∀ schema, build types = .ok schema →
      build schema.types = .ok schema ∧ build schema.sorted = .ok ⟨schema.sorted⟩) ∧
    ∀ touched, List.Forall₂ (fun type other => other = type ∨ other = type.complete) types touched →
      build touched = build types := by
  refine ⟨⟨?_, ?_⟩, ?_, ?_, ?_⟩
  · rintro ⟨schema, built⟩
    exact ⟨_, build_of_perm perm built⟩
  · rintro ⟨schema, built⟩
    exact ⟨_, build_of_perm perm.symm built⟩
  · intro schema other built built'
    obtain ⟨completed, distinct, -⟩ := build_eq_ok_iff.mp built
    obtain ⟨completed', -, -⟩ := build_eq_ok_iff.mp built'
    have moved : schema.types.Perm other.types := completed ▸ completed' ▸ perm.map _
    exact ⟨find?_eq_of_perm moved distinct.names, find?_eq_of_perm moved distinct.ids,
      sorted_eq_of_perm moved distinct.names⟩
  · intro schema built
    have complete : ∀ type ∈ schema.types, type.complete = type := fun _ => complete_of_build built
    have again : build schema.types = .ok schema := by
      rw [build_eq_ok_iff, map_complete complete]
      exact ⟨rfl, (build_eq_ok_iff.mp built).2⟩
    refine ⟨again, ?_⟩
    rw [build_of_perm schema.sorted_perm.symm again, map_complete]
    exact fun type member => complete type (schema.sorted_perm.mem_iff.mp member)
  · intro touched states
    rw [build, build, accept_touched states]

/-- Doves know their dovecot, and it knows them; that its records have ids goes without saying. -/
def dovecotType : RecordType :=
  { id := "t1", name := "acme.Dovecot", defaultField := "name"
    fields := [{ id := "f1", name := "name", kind := .text },
      { id := "f2", name := "doves", kind := .inverse, target := "acme.Dove", inverse := "home" }] }

def doveType : RecordType :=
  { id := "t2", name := "acme.Dove"
    fields := [{ id := "f1", name := "id", kind := .id },
      { id := "f2", name := "home", kind := .reference, target := "acme.Dovecot" }] }

theorem doves_same_schema : ∃ schema other, build [dovecotType, doveType] = .ok schema ∧
    build [doveType, dovecotType] = .ok other ∧ (∀ name, schema.typeNamed? name = other.typeNamed? name) ∧
    (∀ id, schema.typeById? id = other.typeById? id) ∧ schema.sorted = other.sorted ∧
    build schema.sorted = .ok ⟨schema.sorted⟩ ∧
    build [dovecotType, doveType.complete] = build [dovecotType, doveType] := by
  have builds : (build [dovecotType, doveType]).toBool = true := by decide +kernel
  obtain ⟨schema, built⟩ := exists_ok_of_toBool builds
  obtain ⟨alike, same, again, touched⟩ :=
    same_schema_of_perm [dovecotType, doveType] [doveType, dovecotType] (.swap _ _ _)
  obtain ⟨other, built'⟩ := alike.mp ⟨schema, built⟩
  obtain ⟨names, ids, sorted⟩ := same schema other built built'
  exact ⟨schema, other, built, built', names, ids, sorted, (again schema built).2,
    touched _ (.cons (.inl rfl) (.cons (.inr rfl) .nil))⟩

end Schema
end RecordQuery
