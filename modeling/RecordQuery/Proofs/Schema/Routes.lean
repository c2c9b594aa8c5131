import RecordQuery.Proofs.Aliases.Prefixes
import RecordQuery.Proofs.Schema.Identity
import RecordQuery.Proofs.Schema.Naming
import RecordQuery.Sql.Scope

namespace RecordQuery

theorem parentPath_append (fresh : Text.ascii '.' ∉ last) (above : Text) :
    parentPath (above ++ Text.ascii '.' :: last) = above := by
  rw [parentPath, Text.beforeLast?_append fresh, Option.getD_some]

theorem parentPath_of_not_mem {path : Text} (single : Text.ascii '.' ∉ path) : parentPath path = [] := by
  rw [parentPath, Text.beforeLast?_of_not_mem single, Option.getD_none]

theorem parentPath_cases (path : Text) :
    parentPath path = [] ∨ parentPath path ∈ Aliases.strictPrefixes path := by
  by_cases dotted : Text.ascii '.' ∈ path
  · obtain ⟨above, last, rfl, fresh⟩ := Text.exists_beforeLast dotted
    rw [parentPath_append fresh]
    exact .inr (Aliases.mem_strictPrefixes_append above last)
  · exact .inl (parentPath_of_not_mem dotted)

/-- A prefix starts as the path does. -/
theorem head?_of_strictPrefix (member : above ∈ Aliases.strictPrefixes path)
    (undotted : path.head? ≠ some (Text.ascii '.')) : above ≠ [] ∧ above.head? ≠ some (Text.ascii '.') := by
  obtain ⟨rest, rfl⟩ := Aliases.mem_strictPrefixes_iff.mp member
  cases above with
  | nil => exact absurd rfl undotted
  | cons b above => exact ⟨List.cons_ne_nil _ _, undotted⟩

theorem head?_parentPath (undotted : path.head? ≠ some (Text.ascii '.')) :
    (parentPath path).head? ≠ some (Text.ascii '.') := by
  rcases parentPath_cases path with top | above
  · rw [top]
    exact nofun
  · exact (head?_of_strictPrefix above undotted).2

/-- Where the base type has no nameless field, no path starts with a dot. -/
theorem Schema.head?_of_walk {schema : Schema} (named : type.field? [] = none)
    (walked : schema.walk type path = .ok route) : path.head? ≠ some (Text.ascii '.') := by
  intro dotted
  obtain ⟨rest, rfl⟩ := List.head?_eq_some_iff.mp dotted
  rw [Schema.walk, ← List.nil_append (Text.ascii '.' :: rest), splitFirst_append List.not_mem_nil] at walked
  simp only at walked
  rw [walkNames.eq_def, named] at walked
  split at walked
  · cases walked
  · cases walked

theorem Schema.Named.nameless {schema : Schema} (named : schema.Named) (member : type ∈ schema.types) :
    type.field? [] = none := by
  rw [RecordType.field?, List.find?_eq_none]
  intro field owned
  simpa using named.filled type member field owned

variable {schema : Schema}

/-- The steps lead from one type to another. -/
def Schema.Leads (schema : Schema) (start : RecordType) : List Step → RecordType → Prop
  | [], goal => start = goal
  | step :: steps, goal => step.owner = start ∧ start.field? step.field.name = some step.field ∧
    ∃ next, schema.typeNamed? step.field.target = some next ∧ schema.Leads next steps goal

theorem Schema.typeNamed?_of_follow (leads : schema.follow owner field path = .ok target) :
    schema.typeNamed? field.target = some target := by
  rw [follow] at leads
  split at leads
  · split at leads
    · cases leads
      assumption
    · cases leads
  · cases leads

theorem RecordType.field?_name {type : RecordType} {name : Text} (found : type.field? name = some field) :
    type.field? field.name = some field := by
  have same : field.name = name := by simpa using List.find?_some found
  rwa [same]

theorem Schema.leads_of_walkNames (walked : schema.walkNames path owner name names = .ok route) :
    schema.Leads owner route.above route.last.owner ∧
      route.last.owner.field? route.leaf.name = some route.leaf := by
  induction names generalizing owner name route with
  | nil =>
    rw [walkNames] at walked
    split at walked
    · cases walked
    · rename_i field found
      cases walked
      exact ⟨rfl, RecordType.field?_name found⟩
  | cons next names ih =>
    rw [walkNames] at walked
    split at walked
    · cases walked
    · rename_i field found
      obtain ⟨target, follows, walked⟩ := bind_eq_ok.mp walked
      obtain ⟨inner, deeper, same⟩ := bind_eq_ok.mp walked
      obtain rfl := pure_eq_ok.mp same
      obtain ⟨leads, owned⟩ := ih deeper
      exact ⟨⟨rfl, RecordType.field?_name found, target, typeNamed?_of_follow follows, leads⟩, owned⟩

/-- All fields along a path but the last are relationships. -/
theorem Schema.isRelationship_of_above (walked : schema.walkNames path owner name names = .ok route) :
    ∀ step ∈ route.above, step.field.kind.isRelationship = true := by
  induction names generalizing owner name route with
  | nil =>
    rw [walkNames] at walked
    split at walked
    · cases walked
    · cases walked
      exact List.forall_mem_nil _
  | cons next names ih =>
    rw [walkNames] at walked
    split at walked
    · cases walked
    · rename_i field found
      obtain ⟨target, follows, walked⟩ := bind_eq_ok.mp walked
      obtain ⟨inner, deeper, same⟩ := bind_eq_ok.mp walked
      obtain rfl := pure_eq_ok.mp same
      refine List.forall_mem_cons.mpr ⟨?_, ih deeper⟩
      rw [follow] at follows
      split at follows
      · assumption
      · cases follows

/-- A route starts with the steps of a shorter one. -/
theorem Schema.walkNames_append (walked : schema.walkNames path owner name (names ++ more) = .ok route)
    (other : Text) : ∃ shorter rest, schema.walkNames other owner name names = .ok shorter ∧
      route.steps = shorter.steps ++ rest ∧ rest.length = more.length := by
  induction names generalizing owner name route with
  | nil =>
    cases more with
    | nil =>
      rw [List.nil_append, walkNames] at walked
      split at walked
      · cases walked
      · rename_i field found
        cases walked
        exact ⟨_, [], by rw [walkNames, found], by simp [Route.steps], rfl⟩
    | cons next more =>
      have named := walkNames_names walked
      rw [List.nil_append, walkNames] at walked
      split at walked
      · cases walked
      · rename_i field found
        obtain ⟨target, -, walked⟩ := bind_eq_ok.mp walked
        obtain ⟨inner, -, same⟩ := bind_eq_ok.mp walked
        obtain rfl := pure_eq_ok.mp same
        refine ⟨⟨[], owner, field⟩, inner.steps, by rw [walkNames, found], rfl, ?_⟩
        have lengths := congrArg List.length named
        simpa [Route.names, Route.steps, Route.extend] using lengths
  | cons next names ih =>
    rw [List.cons_append, walkNames] at walked
    split at walked
    · cases walked
    · rename_i field found
      obtain ⟨target, follows, walked⟩ := bind_eq_ok.mp walked
      obtain ⟨inner, deeper, same⟩ := bind_eq_ok.mp walked
      obtain rfl := pure_eq_ok.mp same
      obtain ⟨shorter, rest, walks, steps, lengths⟩ := ih deeper
      refine ⟨shorter.extend ⟨owner, field⟩, rest, ?_, ?_, lengths⟩
      · rw [walkNames, found]
        exact bind_eq_ok.mpr ⟨target, (follow_eq_ok follows other).1, bind_eq_ok.mpr ⟨shorter, walks, rfl⟩⟩
      · simpa [Route.steps, Route.extend] using steps

theorem splitFirst_dotted (above rest : Text) :
    Text.splitFirst (Text.ascii '.') (above ++ Text.ascii '.' :: rest) =
      ((above.splitFirst (Text.ascii '.')).1,
        (above.splitFirst (Text.ascii '.')).2 ++ rest.splitOn (Text.ascii '.')) := by
  induction above with
  | nil => simp [Text.splitFirst, Text.splitOn]
  | cons b above ih =>
    rw [List.cons_append, Text.splitFirst, ih, Text.splitFirst]
    by_cases dot : b = Text.ascii '.'
    · simp [dot]
    · simp [dot]

/-- The part of a path before a dot leads along the same steps. -/
theorem Schema.walk_above {above rest : Text}
    (walked : schema.walk type (above ++ Text.ascii '.' :: rest) = .ok route) :
    ∃ shorter more, schema.walk type above = .ok shorter ∧ route.steps = shorter.steps ++ more ∧
      more.length = (rest.splitOn (Text.ascii '.')).length := by
  rw [walk, splitFirst_dotted] at walked
  exact walkNames_append walked above

/-- The part of a path before its last dot leads along all steps but the last. -/
theorem Schema.walk_parent {above last : Text}
    (walked : schema.walk type (above ++ Text.ascii '.' :: last) = .ok route)
    (fresh : Text.ascii '.' ∉ last) :
    ∃ shorter, schema.walk type above = .ok shorter ∧ shorter.steps = route.above := by
  obtain ⟨shorter, more, walks, steps, length⟩ := walk_above walked
  refine ⟨shorter, walks, ?_⟩
  rw [Text.splitOn, splitFirst_of_not_mem fresh] at length
  obtain ⟨only, rfl⟩ := List.length_eq_one_iff.mp length
  exact (List.append_inj_left' steps rfl).symm

theorem Schema.above_of_walk {path : Text} (single : Text.ascii '.' ∉ path)
    (walked : schema.walk type path = .ok route) : route.above = [] := by
  rw [walk, splitFirst_of_not_mem single] at walked
  simp only at walked
  rw [walkNames] at walked
  split at walked
  · cases walked
  · cases walked
    rfl

/-- What stands before the last dot of a path leads along the steps before its last one. -/
theorem Schema.walk_parentPath (undotted : path.head? ≠ some (Text.ascii '.'))
    (walked : schema.walk type path = .ok route) :
    (parentPath path = [] ∧ route.above = []) ∨ parentPath path ≠ [] ∧
      ∃ shorter, schema.walk type (parentPath path) = .ok shorter ∧ shorter.steps = route.above := by
  by_cases dotted : Text.ascii '.' ∈ path
  · obtain ⟨above, last, rfl, fresh⟩ := Text.exists_beforeLast dotted
    rw [parentPath_append fresh]
    have above := head?_of_strictPrefix (Aliases.mem_strictPrefixes_append above last) undotted
    exact .inr ⟨above.1, walk_parent walked fresh⟩
  · exact .inl ⟨parentPath_of_not_mem dotted, above_of_walk dotted walked⟩

/-- What stands before any dot of a path leads along some of the steps before its last one. -/
theorem Schema.walk_strictPrefix (member : above ∈ Aliases.strictPrefixes path)
    (walked : schema.walk type path = .ok route) :
    ∃ shorter more, schema.walk type above = .ok shorter ∧ route.above = shorter.steps ++ more := by
  obtain ⟨rest, rfl⟩ := Aliases.mem_strictPrefixes_iff.mp member
  obtain ⟨shorter, more, walks, steps, length⟩ := walk_above walked
  have filled : more ≠ [] := by
    rintro rfl
    cases length
  obtain ⟨more, last, rfl⟩ := (List.eq_nil_or_concat more).resolve_left filled
  rw [List.concat_eq_append, ← List.append_assoc] at steps
  exact ⟨shorter, more, walks, List.append_inj_left' steps rfl⟩

theorem Schema.leads_append : schema.Leads start (first ++ second) goal ↔
    ∃ middle, schema.Leads start first middle ∧ schema.Leads middle second goal := by
  induction first generalizing start with
  | nil => simp [Leads]
  | cons step first ih =>
    simp only [List.cons_append, Leads, ih]
    tauto

theorem Schema.mem_of_leads (leads : schema.Leads start steps goal) : goal ∈ start :: schema.types := by
  induction steps generalizing start with
  | nil => exact leads ▸ List.mem_cons_self
  | cons step steps ih =>
    obtain ⟨-, -, next, found, leads⟩ := leads
    rcases List.mem_cons.mp (ih leads) with rfl | known
    · exact List.mem_cons_of_mem _ (List.mem_of_find?_eq_some found)
    · exact List.mem_cons_of_mem _ known

theorem Schema.leads_of_walk (walked : schema.walk type path = .ok route) :
    schema.Leads type route.above route.last.owner ∧
      route.last.owner.field? route.leaf.name = some route.leaf :=
  leads_of_walkNames walked

theorem Route.foreignKey?_eq_some {route : Route} : route.foreignKey? = some reference ↔
    ∃ init step, route.above = init ++ [step] ∧ route.leaf.name = idName ∧
      step.field.kind = .reference ∧ step.field = reference := by
  rw [foreignKey?]
  constructor
  · intro found
    split at found
    · cases found
    · rename_i step last
      obtain ⟨init, whole⟩ := List.getLast?_eq_some_iff.mp last
      obtain ⟨⟨isId, isReference⟩, same⟩ := Option.ite_none_right_eq_some.mp found
      exact ⟨init, step, whole, isId, isReference, Option.some.inj same⟩
  · rintro ⟨init, step, whole, isId, isReference, rfl⟩
    rw [whole, List.getLast?_concat]
    exact if_pos ⟨isId, isReference⟩

theorem RecordType.idColumn_eq {type : RecordType} {name : Text} (found : type.field? name = some field)
    (isId : name = idName) : type.idColumn = field.column := by
  rw [idColumn, idField?, ← isId, found]
  rfl

end RecordQuery
