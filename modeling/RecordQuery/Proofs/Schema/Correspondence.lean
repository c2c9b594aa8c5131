import RecordQuery.Proofs.Document.Encoded
import RecordQuery.Proofs.Document.RoundTrip
import RecordQuery.Proofs.Schema.Declared
import RecordQuery.Proofs.Schema.Ids
import RecordQuery.Proofs.Schema.Routes

/-! Dotted paths and id paths correspond one to one in a schema that was built, and a dotted path that
leads nowhere breaks off at a name: no relationship leads to a type that is not there. -/
namespace RecordQuery.Schema

variable {schema : Schema}

/-- The steps go along relationships from one type to another. -/
structure Passes (schema : Schema) (start : RecordType) (steps : List Step) (goal : RecordType) : Prop where
  leads : schema.Leads start steps goal
  relationships : ∀ step ∈ steps, step.field.kind.isRelationship = true

theorem Passes.nil (type : RecordType) : schema.Passes type [] type := ⟨rfl, List.forall_mem_nil _⟩

theorem Passes.cons (found : owner.field? field.name = some field)
    (relationship : field.kind.isRelationship = true) (known : schema.typeNamed? field.target = some next)
    (passes : schema.Passes next steps goal) : schema.Passes owner (⟨owner, field⟩ :: steps) goal :=
  ⟨⟨rfl, found, next, known, passes.leads⟩, List.forall_mem_cons.mpr ⟨relationship, passes.relationships⟩⟩

/-- A path breaks off at a type that its first names lead to: the next name is unknown there, or it is
that of a single value although the path goes on. -/
inductive BreaksOff (schema : Schema) (base : RecordType) (path : Text) : SchemaError → Prop
  | unknownField {steps : List Step} {owner : RecordType} {name : Text} {rest : List Text}
      (passes : schema.Passes base steps owner)
      (spelled : path.splitOn (Text.ascii '.') = steps.map (·.field.name) ++ name :: rest)
      (missing : owner.field? name = none) :
      BreaksOff schema base path ⟨.unknownField name owner.name, [path]⟩
  | notRelationship {steps : List Step} {owner : RecordType} {name next : Text} {rest : List Text}
      {field : Field} (passes : schema.Passes base steps owner)
      (spelled : path.splitOn (Text.ascii '.') = steps.map (·.field.name) ++ name :: next :: rest)
      (found : owner.field? name = some field) (single : field.kind.isRelationship = false) :
      BreaksOff schema base path ⟨.notRelationship name owner.name, [path]⟩

theorem follow_of_passes (relationship : field.kind.isRelationship = true)
    (known : schema.typeNamed? field.target = some target) (owner : RecordType) (path : Text) :
    schema.follow owner field path = .ok target := by
  rw [follow, if_pos relationship, known]

/-- A walk goes on from where its first names lead. -/
theorem walkNames_of_passes {names : List Text} (passes : schema.Passes owner steps goal)
    (spelled : first :: more = steps.map (·.field.name) ++ name :: names) :
    schema.walkNames path owner first more =
      (schema.walkNames path goal name names).map fun route => ⟨steps ++ route.above, route.last⟩ := by
  induction steps generalizing owner first more with
  | nil =>
    obtain ⟨rfl, rfl⟩ := List.cons.inj spelled
    obtain rfl := passes.leads
    generalize schema.walkNames path owner first more = outcome
    cases outcome <;> rfl
  | cons step steps ih =>
    obtain ⟨⟨rfl, found, target, known, leads⟩, relationships⟩ := passes
    obtain ⟨relationship, later⟩ := List.forall_mem_cons.mp relationships
    rw [List.map_cons, List.cons_append] at spelled
    obtain ⟨rfl, others⟩ := List.cons.inj spelled
    cases more with
    | nil => simp at others
    | cons next more =>
      rw [walkNames, found]
      simp only [follow_of_passes relationship known, ok_bind, ih ⟨leads, later⟩ others]
      generalize schema.walkNames path goal name names = outcome
      cases outcome <;> rfl

/-- A walk that fails has come to a type where the next name is unknown or that of a single value. -/
theorem exists_passes_of_walkNames
    (linked : ∀ type ∈ schema.types, ∀ field ∈ type.fields, schema.Linked type field)
    (member : owner ∈ schema.types) (failed : schema.walkNames path owner name names = .error error) :
    ∃ steps goal last rest, schema.Passes owner steps goal ∧
      name :: names = steps.map (·.field.name) ++ last :: rest ∧
      ((goal.field? last = none ∧ error = ⟨.unknownField last goal.name, [path]⟩) ∨
        (rest ≠ [] ∧ (∃ field, goal.field? last = some field ∧ field.kind.isRelationship = false) ∧
          error = ⟨.notRelationship last goal.name, [path]⟩)) := by
  induction names generalizing owner name with
  | nil =>
    rw [walkNames] at failed
    split at failed
    · rename_i missing
      cases failed
      exact ⟨[], owner, name, [], .nil owner, rfl, .inl ⟨missing, rfl⟩⟩
    · cases failed
  | cons next names ih =>
    rw [walkNames] at failed
    split at failed
    · rename_i missing
      cases failed
      exact ⟨[], owner, name, _, .nil owner, rfl, .inl ⟨missing, rfl⟩⟩
    · rename_i field found
      have same : field.name = name := by simpa using List.find?_some found
      by_cases relationship : field.kind.isRelationship = true
      · obtain ⟨target, known, -⟩ :=
          (linked owner member field (List.mem_of_find?_eq_some found)).target relationship
        rw [follow_of_passes relationship known, ok_bind] at failed
        have inner : schema.walkNames path target next names = .error error := by
          cases walked : schema.walkNames path target next names with
          | ok route =>
            rw [walked] at failed
            cases failed
          | error other =>
            rw [walked] at failed
            exact failed
        obtain ⟨steps, goal, last, rest, passes, spelled, broken⟩ :=
          ih (List.mem_of_find?_eq_some known) inner
        refine ⟨⟨owner, field⟩ :: steps, goal, last, rest, ?_, ?_, broken⟩
        · exact .cons (RecordType.field?_name found) relationship known passes
        · rw [spelled, List.map_cons, List.cons_append, same]
      · have single : field.kind.isRelationship = false := by simpa using relationship
        rw [follow, if_neg relationship] at failed
        cases failed
        exact ⟨[], owner, name, _, .nil owner, rfl,
          .inr ⟨List.cons_ne_nil _ _, ⟨field, found, single⟩, by rw [same]⟩⟩

/-- Walks along dotted paths fail just where the paths break off. -/
theorem walk_eq_error_iff (linked : ∀ type ∈ schema.types, ∀ field ∈ type.fields, schema.Linked type field)
    (member : base ∈ schema.types) :
    schema.walk base path = .error error ↔ schema.BreaksOff base path error := by
  constructor
  · intro failed
    obtain ⟨steps, goal, last, rest, passes, spelled, broken⟩ :=
      exists_passes_of_walkNames linked member failed
    rcases broken with ⟨missing, rfl⟩ | ⟨more, ⟨field, found, single⟩, rfl⟩
    · exact .unknownField passes spelled missing
    · obtain ⟨next, rest, rfl⟩ := List.exists_cons_of_ne_nil more
      exact .notRelationship passes spelled found single
  · intro broken
    cases broken with
    | unknownField passes spelled missing =>
      refine (walkNames_of_passes passes spelled).trans ?_
      rw [walkNames.eq_def, missing]
      split <;> rfl
    | @notRelationship _ _ name _ _ field passes spelled found single =>
      have same : field.name = name := by simpa using List.find?_some found
      refine (walkNames_of_passes passes spelled).trans ?_
      rw [walkNames, found]
      simp only [follow, single, same]
      rfl

/-- In a schema that was built, the id path of a dotted path leads back to that path along the same
steps, and the dotted path of an id path to that id path. A dotted path without an id path breaks off at a
name that is unknown or that of a single value. -/
theorem refer_iff_walkIds (declared : List RecordType) (schema : Schema)
    (built : Schema.build declared = .ok schema) (base : RecordType) (member : base ∈ schema.types)
    (path : Text) :
    (∀ ids route, schema.refer base path = .ok (⟨ids, path⟩, route) ↔
      schema.walkIds base ids = .ok (path, route)) ∧
    ∀ error, schema.walk base path = .error error ↔ schema.BreaksOff base path error := by
  have identified := identified_of_build built
  have named := named_of_build built
  refine ⟨?_, fun error => walk_eq_error_iff (linked_of_build built) member⟩
  intro ids route
  constructor
  · intro referred
    obtain ⟨walked, same⟩ := walk_of_refer referred
    obtain ⟨rfl, -⟩ := PropertyRef.mk.inj same
    exact identified.walkIds member walked
  · intro walked
    rw [refer_eq_ok (named.walk member walked), walkIds_ids walked]

/-- The path to the name of a mate's mate has ids that lead back to it; the one behind a name breaks off. -/
theorem pigeons_refer_iff : Schema.build [pigeonType] = .ok ⟨[pigeonType]⟩ ∧
    (∃ route, Schema.refer ⟨[pigeonType]⟩ pigeonType "mate.mate.name" =
        .ok (⟨["f3", "f3", "f2"], "mate.mate.name"⟩, route) ∧
      Schema.walkIds ⟨[pigeonType]⟩ pigeonType ["f3", "f3", "f2"] = .ok ("mate.mate.name", route)) ∧
    Schema.BreaksOff ⟨[pigeonType]⟩ pigeonType "mate.name.id"
      ⟨.notRelationship "name" "acme.Pigeon", ["mate.name.id"]⟩ := by
  have pigeons := refer_iff_walkIds [pigeonType] ⟨[pigeonType]⟩ rfl pigeonType (.head _)
  have refers : (Schema.refer ⟨[pigeonType]⟩ pigeonType "mate.mate.name").map (·.1) =
      .ok ⟨["f3", "f3", "f2"], "mate.mate.name"⟩ := rfl
  obtain ⟨⟨_, route⟩, referred, rfl⟩ := map_eq_ok.mp refers
  exact ⟨rfl, ⟨route, referred, ((pigeons _).1 _ _).mp referred⟩, ((pigeons _).2 _).mp rfl⟩

end RecordQuery.Schema
