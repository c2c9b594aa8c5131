import RecordQuery.Proofs.Schema.Ids

/-! Schemas that tell the same types and fields by other names. Since the ids are the same, every path of
one schema has a counterpart in the other, which leads along the same fields. -/
namespace RecordQuery

/-- The type of the same id. -/
def Schema.counterpart (other : Schema) (type : RecordType) : RecordType :=
  (other.typeById? type.id).getD type

/-- The name that the field goes by in the other schema. -/
def Step.nameIn (other : Schema) (step : Step) : Text :=
  (((other.counterpart step.owner).fieldById? step.field.id).map (·.name)).getD step.field.name

/-- The path in the names of the other schema. -/
def Schema.renamedPath (schema other : Schema) (type : RecordType) (path : Text) : Text :=
  match schema.walk type path with
  | .ok route => Text.join "." (route.steps.map (Step.nameIn other))
  | .error _ => path

namespace Schema

variable {schema other : Schema}

/-- The same field under another name. A relationship leads to the same type, under whatever name. -/
structure RenamesField (schema other : Schema) (field changed : Field) : Prop where
  id : changed.id = field.id
  kind : changed.kind = field.kind
  target : field.kind.isRelationship = true → ∀ target ∈ schema.types, target.name = field.target →
    ∃ goal ∈ other.types, goal.name = changed.target ∧ goal.id = target.id

/-- The other schema has the same types with the same fields. Names, labels, tables and columns may differ. -/
def Renames (schema other : Schema) : Prop :=
  ∀ type ∈ schema.types, ∃ changed ∈ other.types, changed.id = type.id ∧
    ∀ field ∈ type.fields, ∃ renamed ∈ changed.fields, schema.RenamesField other field renamed

theorem Identified.counterpart_eq (identified : other.Identified) (member : changed ∈ other.types)
    (same : changed.id = type.id) : other.counterpart type = changed := by
  rw [counterpart, ← same, identified.typeById? member, Option.getD_some]

theorem RenamesField.follow {target : RecordType}
    (renamed : schema.RenamesField other field changed) (addressed : other.Addressed)
    (leads : schema.follow owner field path = .ok target) (owner' : RecordType) (path' : Text) :
    other.follow owner' changed path' = .ok (other.counterpart target) := by
  rw [Schema.follow] at leads
  split at leads
  · rename_i relationship
    split at leads
    · rename_i found
      cases leads
      have named : target.name = field.target := by simpa using List.find?_some found
      obtain ⟨goal, known, goalName, goalId⟩ :=
        renamed.target relationship target (List.mem_of_find?_eq_some found) named
      rw [Schema.follow, renamed.kind, if_pos relationship, ← goalName, addressed.typeNamed? known,
        addressed.identified.counterpart_eq known goalId]
    · cases leads
  · cases leads

/-- The routes lead along the same fields. -/
structure SameRoute (route changed : Route) : Prop where
  ids : changed.ids = route.ids
  kinds : changed.steps.map (·.field.kind) = route.steps.map (·.field.kind)

theorem SameRoute.leaf (same : SameRoute route changed) : changed.leaf.kind = route.leaf.kind := by
  have last := congrArg List.getLast? same.kinds
  simpa [Route.steps, Route.leaf] using last

theorem SameRoute.isCollection (same : SameRoute route changed) :
    changed.isCollection = route.isCollection := by
  have kinds := congrArg (List.any · Kind.isCollection) same.kinds
  simp only [List.any_map] at kinds
  exact kinds

theorem SameRoute.extend (same : SameRoute route changed) (id : step'.field.id = step.field.id)
    (kind : step'.field.kind = step.field.kind) : SameRoute (route.extend step) (changed.extend step') := by
  constructor
  · simpa [Route.ids, Route.steps, Route.extend, id] using same.ids
  · simpa [Route.steps, Route.extend, kind] using same.kinds

section Walk

variable (renames : schema.Renames other) (addressed : other.Addressed)

include renames addressed

theorem Renames.mem_types (member : type ∈ schema.types) : other.counterpart type ∈ other.types := by
  obtain ⟨changed, known, same, -⟩ := renames type member
  rwa [addressed.identified.counterpart_eq known same]

theorem Renames.exists_field (member : owner ∈ schema.types) (owned : field ∈ owner.fields) :
    ∃ changed ∈ (other.counterpart owner).fields, schema.RenamesField other field changed ∧
      Step.nameIn other ⟨owner, field⟩ = changed.name := by
  obtain ⟨type, known, same, fields⟩ := renames owner member
  obtain ⟨changed, listed, renamed⟩ := fields field owned
  have counterpart := addressed.identified.counterpart_eq known same
  refine ⟨changed, counterpart ▸ listed, renamed, ?_⟩
  rw [Step.nameIn, counterpart, ← renamed.id, addressed.identified.fieldById? known listed]
  rfl

/-- The names of the other schema lead along the same fields, and have no dots. -/
theorem Renames.walkNames (member : owner ∈ schema.types)
    (walked : schema.walkNames path owner name names = .ok route) (path' : Text) :
    ∃ changed first rest, route.steps.map (Step.nameIn other) = first :: rest ∧
      other.walkNames path' (other.counterpart owner) first rest = .ok changed ∧
      SameRoute route changed ∧ ∀ part ∈ first :: rest, Text.ascii '.' ∉ part := by
  induction names generalizing owner name route with
  | nil =>
    rw [Schema.walkNames] at walked
    split at walked
    · cases walked
    · rename_i field found
      cases walked
      obtain ⟨changed, owned, renamed, named⟩ :=
        renames.exists_field addressed member (List.mem_of_find?_eq_some found)
      have known := renames.mem_types addressed member
      refine ⟨⟨[], other.counterpart owner, changed⟩, changed.name, [], ?_, ?_, ⟨?_, ?_⟩, ?_⟩
      · rw [← named]
        rfl
      · rw [Schema.walkNames, addressed.named.field? known owned]
      · exact congrArg (fun id => [id]) renamed.id
      · exact congrArg (fun kind => [kind]) renamed.kind
      · exact List.forall_mem_singleton.mpr (addressed.named.undotted _ known _ owned)
  | cons next names ih =>
    rw [Schema.walkNames] at walked
    split at walked
    · cases walked
    · rename_i field found
      obtain ⟨target, leads, walked⟩ := bind_eq_ok.mp walked
      obtain ⟨inner, deeper, same⟩ := bind_eq_ok.mp walked
      obtain rfl := pure_eq_ok.mp same
      obtain ⟨changed, owned, renamed, named⟩ :=
        renames.exists_field addressed member (List.mem_of_find?_eq_some found)
      have known := renames.mem_types addressed member
      obtain ⟨shorter, first, rest, names, walks, same, undotted⟩ := ih (follow_eq_ok leads path).2 deeper
      have follows := renamed.follow addressed leads (other.counterpart owner) path'
      refine ⟨shorter.extend ⟨other.counterpart owner, changed⟩, changed.name, first :: rest, ?_, ?_,
        same.extend renamed.id renamed.kind, ?_⟩
      · rw [← named, ← names]
        rfl
      · rw [Schema.walkNames, addressed.named.field? known owned]
        exact bind_eq_ok.mpr ⟨_, follows, bind_eq_ok.mpr ⟨shorter, walks, rfl⟩⟩
      · exact List.forall_mem_cons.mpr ⟨addressed.named.undotted _ known _ owned, undotted⟩

theorem Renames.walk (member : type ∈ schema.types) (walked : schema.walk type path = .ok route) :
    ∃ changed, other.walk (other.counterpart type) (schema.renamedPath other type path) = .ok changed ∧
      SameRoute route changed := by
  obtain ⟨changed, first, rest, names, walks, same, undotted⟩ :=
    renames.walkNames addressed member walked (Text.join "." (route.steps.map (Step.nameIn other)))
  obtain ⟨single, others⟩ := List.forall_mem_cons.mp undotted
  refine ⟨changed, ?_, same⟩
  rw [renamedPath, walked]
  simp only
  rw [Schema.walk, names, splitFirst_join single others, ← names]
  exact walks

/-- Different paths have different counterparts. -/
theorem Renames.eq_of_renamedPath (identified : schema.Identified) (member : type ∈ schema.types)
    (walked : schema.walk type path = .ok route) (walked' : schema.walk type path' = .ok route')
    (same : schema.renamedPath other type path = schema.renamedPath other type path') : path = path' := by
  obtain ⟨changed, walks, first⟩ := renames.walk addressed member walked
  obtain ⟨changed', walks', second⟩ := renames.walk addressed member walked'
  rw [same] at walks
  cases walks.symm.trans walks'
  have back := identified.walkIds member walked
  rw [← first.ids, second.ids, identified.walkIds member walked'] at back
  exact (Prod.mk.inj (Except.ok.inj back)).1.symm

end Walk
end Schema
end RecordQuery
