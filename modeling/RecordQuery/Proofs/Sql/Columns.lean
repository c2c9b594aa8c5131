import RecordQuery.Proofs.Criteria.Lawful
import RecordQuery.Proofs.Schema.Ids
import RecordQuery.Sql.Render

namespace RecordQuery.Sql

mutual

/-- The columns that an expression reads. -/
def Expression.columns : Expression → List Column
  | .column reference => [reference]
  | .asText value => value.columns
  | .orEmpty value => value.columns
  | .text _ => []
  | .concat parts => Expression.columnsAll parts
  | .ifPresent key value => key :: value.columns

def Expression.columnsAll : List Expression → List Column
  | [] => []
  | part :: parts => part.columns ++ Expression.columnsAll parts

end

mutual

/-- The columns that a condition reads, those of its subqueries apart. -/
def Condition.columns : Condition → List Column
  | .compare left _ _ => left.columns
  | .isNull value => value.columns
  | .inValues value _ => value.columns
  | .inQuery value _ => value.columns
  | .not condition => condition.columns
  | .junction _ conditions => Condition.columnsAll conditions

def Condition.columnsAll : List Condition → List Column
  | [] => []
  | condition :: conditions => condition.columns ++ Condition.columnsAll conditions

end

mutual

/-- The subqueries of a condition and those within them. -/
def Condition.subqueries : Condition → List Statement
  | .compare _ _ _ | .isNull _ | .inValues _ _ => []
  | .inQuery _ query => query :: query.subqueries
  | .not condition => condition.subqueries
  | .junction _ conditions => Condition.subqueriesAll conditions

def Condition.subqueriesAll : List Condition → List Statement
  | [] => []
  | condition :: conditions => condition.subqueries ++ Condition.subqueriesAll conditions

/-- The subqueries of a statement, however deep they are nested. -/
def Statement.subqueries : Statement → List Statement
  | ⟨_, _, _, none, _, _, _, _⟩ => []
  | ⟨_, _, _, some condition, _, _, _, _⟩ => condition.subqueries

end

/-- The columns that a statement reads in its result, condition, grouping and order. -/
def Statement.columns (statement : Statement) : List Column :=
  statement.outputs.flatMap (·.value.columns) ++
    (statement.condition.map (·.columns)).getD [] ++
    statement.groupBy.flatMap (·.columns) ++ statement.orderBy.flatMap (·.1.columns)

/-- The value is what the path stands for. -/
def Scope.Means (scope : Scope) (path : Text) (value : Expression) : Prop :=
  ∃ field, scope.column path = .ok (value, field)

section Rendering

variable {renderer : Renderer} {scope : Scope} {criteria : Criteria} {statement : Statement}

/-- What a statement has been made of, its table and row counts apart. -/
structure Renderer.Renders (renderer : Renderer) (criteria : Criteria) (statement : Statement)
    (scope : Scope) : Prop where
  outputs : ∃ plain aggregated, statement.outputs = plain ++ aggregated ∧
    List.Forall₂ (fun path output => scope.Means path output.value) criteria.properties plain ∧
    List.Forall₂ (fun call output => scope.Means call.property output.value) criteria.aggregates
      aggregated
  joins : scope.joins criteria.paths = .ok statement.joins
  condition : Option.Rel (fun restriction condition => renderer.condition scope restriction = .ok condition)
    criteria.restriction statement.condition
  groupBy : List.Forall₂ scope.Means criteria.groupBy statement.groupBy
  orderBy : List.Forall₂ (fun key sorted => scope.Means key.property sorted.1) criteria.orderBy
    statement.orderBy

theorem outputs_eq_ok (made : scope.outputs properties aggregates = .ok outputs) :
    ∃ plain aggregated, outputs = plain ++ aggregated ∧
      List.Forall₂ (fun path (output : Output) => scope.Means path output.value) properties plain ∧
      List.Forall₂ (fun call (output : Output) => scope.Means call.property output.value) aggregates
        aggregated := by
  obtain ⟨plain, plains, made⟩ := bind_eq_ok.mp made
  obtain ⟨aggregated, calls, same⟩ := bind_eq_ok.mp made
  refine ⟨plain, aggregated, (pure_eq_ok.mp same).symm, ?_, ?_⟩
  · refine (list_mapM_eq_ok.mp plains).imp ?_
    intro path output made
    obtain ⟨⟨value, field⟩, found, same⟩ := bind_eq_ok.mp made
    obtain rfl := pure_eq_ok.mp same
    exact ⟨field, found⟩
  · refine (list_mapM_eq_ok.mp calls).imp ?_
    intro call output made
    obtain ⟨⟨value, field⟩, found, same⟩ := bind_eq_ok.mp made
    obtain rfl := pure_eq_ok.mp same
    exact ⟨field, found⟩

theorem renders_of_complete (selects : scope.outputs criteria.properties criteria.aggregates = .ok outputs)
    (tests : Option.Rel (fun restriction condition => renderer.condition scope restriction = .ok condition)
      criteria.restriction condition)
    (made : scope.complete criteria outputs condition = .ok statement) :
    renderer.Renders criteria statement scope := by
  obtain ⟨groupBy, groups, made⟩ := bind_eq_ok.mp made
  obtain ⟨orderBy, orders, made⟩ := bind_eq_ok.mp made
  obtain ⟨joins, joined, made⟩ := bind_eq_ok.mp made
  obtain ⟨-, same⟩ := guard_eq_ok.mp made
  obtain rfl := pure_eq_ok.mp same
  refine ⟨outputs_eq_ok selects, joined, tests, ?_, ?_⟩
  · refine (list_mapM_eq_ok.mp groups).imp ?_
    intro path value made
    obtain ⟨⟨value, field⟩, found, same⟩ := bind_eq_ok.mp made
    obtain rfl := pure_eq_ok.mp same
    exact ⟨field, found⟩
  · refine (list_mapM_eq_ok.mp orders).imp ?_
    intro key sorted made
    obtain ⟨⟨value, field⟩, found, same⟩ := bind_eq_ok.mp made
    obtain rfl := pure_eq_ok.mp same
    exact ⟨field, found⟩

theorem renders_of_statement (rendered : renderer.statement criteria = .ok statement) :
    renderer.Renders criteria statement (Scope.ofCriteria renderer.schema criteria) := by
  obtain ⟨_, _, _, restriction, _, _, _, _, _, _⟩ := criteria
  cases restriction with
  | none =>
    rw [Renderer.statement] at rendered
    obtain ⟨outputs, selects, made⟩ := bind_eq_ok.mp rendered
    exact renders_of_complete selects .none made
  | some restriction =>
    rw [Renderer.statement] at rendered
    obtain ⟨outputs, selects, made⟩ := bind_eq_ok.mp rendered
    obtain ⟨condition, tests, made⟩ := bind_eq_ok.mp made
    exact renders_of_complete selects (.some tests) made

/-- The columns are those of what the paths stand for, and each path stands for something. -/
structure Scope.Covers (scope : Scope) (paths : List Text) (columns : List Column) : Prop where
  known : ∀ path ∈ paths, ∃ value, scope.Means path value ∧ value.columns ⊆ columns
  needed : ∀ column ∈ columns, ∃ path ∈ paths, ∃ value, scope.Means path value ∧ column ∈ value.columns

theorem Scope.Covers.nil : scope.Covers [] [] :=
  ⟨List.forall_mem_nil _, List.forall_mem_nil _⟩

theorem Scope.Covers.append (first : scope.Covers paths columns) (second : scope.Covers others more) :
    scope.Covers (paths ++ others) (columns ++ more) := by
  constructor
  · intro path member
    rcases List.mem_append.mp member with here | there
    · obtain ⟨value, means, inside⟩ := first.known path here
      exact ⟨value, means, List.subset_append_of_subset_left _ inside⟩
    · obtain ⟨value, means, inside⟩ := second.known path there
      exact ⟨value, means, List.subset_append_of_subset_right _ inside⟩
  · intro column member
    rcases List.mem_append.mp member with here | there
    · obtain ⟨path, inside, read⟩ := first.needed column here
      exact ⟨path, List.mem_append_left _ inside, read⟩
    · obtain ⟨path, inside, read⟩ := second.needed column there
      exact ⟨path, List.mem_append_right _ inside, read⟩

theorem Scope.Covers.congr (covers : scope.Covers paths columns)
    (same : ∀ path, path ∈ others ↔ path ∈ paths) : scope.Covers others columns := by
  constructor
  · intro path member
    exact covers.known path ((same path).mp member)
  · intro column member
    obtain ⟨path, inside, read⟩ := covers.needed column member
    exact ⟨path, (same path).mpr inside, read⟩

theorem Scope.Covers.single (means : scope.Means path value) : scope.Covers [path] value.columns :=
  ⟨List.forall_mem_singleton.mpr ⟨value, means, List.Subset.refl _⟩,
    fun _ member => ⟨path, .head _, value, means, member⟩⟩

theorem Scope.Covers.list {property : α → Text} {expression : β → Expression}
    (all : List.Forall₂ (fun item result => scope.Means (property item) (expression result)) items results) :
    scope.Covers (items.map property) (results.flatMap fun result => (expression result).columns) := by
  induction all with
  | nil => exact .nil
  | cons means _ ih =>
    rw [List.map_cons, List.flatMap_cons]
    exact (Covers.single means).append ih

theorem columns_of_comparison (made : renderer.comparison scope comparator path value = .ok condition) :
    ∃ meaning, scope.Means path meaning ∧ condition.columns = meaning.columns := by
  obtain ⟨⟨meaning, field⟩, found, made⟩ := bind_eq_ok.mp made
  refine ⟨meaning, ⟨field, found⟩, ?_⟩
  simp only at made
  split at made
  · obtain ⟨literal, -, same⟩ := bind_eq_ok.mp made
    obtain rfl := pure_eq_ok.mp same
    rw [Condition.columns]
    split
    · rfl
    · rw [Expression.columns]
  · obtain ⟨literal, -, same⟩ := bind_eq_ok.mp made
    obtain rfl := pure_eq_ok.mp same
    rw [Condition.columns]

theorem covers_leaf {restriction : Restriction} (visits : restriction.visit (fun _ => true) = [restriction])
    (named : restriction.property? = some path) (means : scope.Means path value) :
    scope.Covers restriction.properties value.columns := by
  refine (Scope.Covers.single means).congr ?_
  simp [Restriction.mem_properties_leaf visits named]

mutual

/-- A condition reads the paths of its restriction. -/
theorem covers_condition : (restriction : Restriction) →
    renderer.condition scope restriction = .ok condition →
    scope.Covers restriction.properties condition.columns
  | .missing, made => by cases made
  | .comparison comparator path value, made => by
    obtain ⟨meaning, means, same⟩ := columns_of_comparison made
    rw [same]
    exact covers_leaf rfl rfl means
  | .isNull path, made => by
    rw [Renderer.condition] at made
    obtain ⟨⟨value, field⟩, found, same⟩ := bind_eq_ok.mp made
    obtain rfl := pure_eq_ok.mp same
    exact covers_leaf rfl rfl ⟨field, found⟩
  | .inValues path values, made => by
    rw [Renderer.condition] at made
    obtain ⟨⟨value, field⟩, found, made⟩ := bind_eq_ok.mp made
    obtain ⟨literals, -, same⟩ := bind_eq_ok.mp made
    obtain rfl := pure_eq_ok.mp same
    exact covers_leaf rfl rfl ⟨field, found⟩
  | .inQuery path query, made => by
    rw [Renderer.condition] at made
    obtain ⟨⟨value, field⟩, found, made⟩ := bind_eq_ok.mp made
    obtain ⟨statement, -, same⟩ := bind_eq_ok.mp made
    obtain rfl := pure_eq_ok.mp same
    exact covers_leaf rfl rfl ⟨field, found⟩
  | .not child, made => by
    rw [Renderer.condition] at made
    obtain ⟨inner, nested, same⟩ := bind_eq_ok.mp made
    obtain rfl := pure_eq_ok.mp same
    exact (covers_condition child nested).congr fun _ => Restriction.mem_properties_not
  | .junction connective children, made => by
    rw [Renderer.condition] at made
    obtain ⟨conditions, nested, same⟩ := bind_eq_ok.mp made
    obtain rfl := pure_eq_ok.mp same
    refine (covers_conditions children nested).congr ?_
    intro path
    rw [Restriction.mem_properties_junction, List.mem_flatMap]

theorem covers_conditions : (children : List Restriction) →
    renderer.conditions scope children = .ok conditions →
    scope.Covers (children.flatMap (·.properties)) (Condition.columnsAll conditions)
  | [], made => by
    cases made
    exact .nil
  | child :: children, made => by
    rw [Renderer.conditions] at made
    obtain ⟨condition, first, made⟩ := bind_eq_ok.mp made
    obtain ⟨others, rest, same⟩ := bind_eq_ok.mp made
    obtain rfl := pure_eq_ok.mp same
    rw [List.flatMap_cons, Condition.columnsAll]
    exact (covers_condition child first).append (covers_conditions children rest)

end

/-- A statement reads the paths of its query. -/
theorem Renderer.Renders.covers (renders : renderer.Renders criteria statement scope) :
    scope.Covers criteria.paths statement.columns := by
  obtain ⟨plain, aggregated, outputs, plains, calls⟩ := renders.outputs
  have selected : scope.Covers (criteria.properties ++ criteria.aggregates.map (·.property))
      (statement.outputs.flatMap (·.value.columns)) := by
    rw [outputs, List.flatMap_append, ← List.map_id criteria.properties]
    exact (Scope.Covers.list plains).append (.list calls)
  have tested : scope.Covers ((criteria.restriction.map (·.properties)).getD [])
      ((statement.condition.map (·.columns)).getD []) := by
    have tests := renders.condition
    generalize criteria.restriction = restriction at tests ⊢
    generalize statement.condition = condition at tests ⊢
    cases tests with
    | none => exact .nil
    | some made => exact covers_condition _ made
  have grouped : scope.Covers (criteria.groupBy.map id) (statement.groupBy.flatMap (·.columns)) :=
    .list renders.groupBy
  rw [List.map_id] at grouped
  exact ((selected.append tested).append grouped).append (.list renders.orderBy)

mutual

/-- The subqueries of a condition are the statements of those of its restriction. -/
theorem statements_of_condition : (restriction : Restriction) → {scope : Scope} →
    {condition : Condition} → renderer.condition scope restriction = .ok condition →
    List.Forall₂ (fun query part => renderer.statement query = .ok part) restriction.subqueries
      condition.subqueries
  | .missing, _, _, made => by cases made
  | .comparison comparator path value, _, _, made => by
    obtain ⟨⟨meaning, field⟩, -, made⟩ := bind_eq_ok.mp made
    simp only at made
    split at made
    · obtain ⟨literal, -, same⟩ := bind_eq_ok.mp made
      obtain rfl := pure_eq_ok.mp same
      exact .nil
    · obtain ⟨literal, -, same⟩ := bind_eq_ok.mp made
      obtain rfl := pure_eq_ok.mp same
      exact .nil
  | .isNull path, _, _, made => by
    rw [Renderer.condition] at made
    obtain ⟨_, -, same⟩ := bind_eq_ok.mp made
    obtain rfl := pure_eq_ok.mp same
    exact .nil
  | .inValues path values, _, _, made => by
    rw [Renderer.condition] at made
    obtain ⟨⟨value, field⟩, -, made⟩ := bind_eq_ok.mp made
    obtain ⟨literals, -, same⟩ := bind_eq_ok.mp made
    obtain rfl := pure_eq_ok.mp same
    exact .nil
  | .inQuery path query, _, _, made => by
    rw [Renderer.condition] at made
    obtain ⟨⟨value, field⟩, -, made⟩ := bind_eq_ok.mp made
    obtain ⟨statement, rendered, same⟩ := bind_eq_ok.mp made
    obtain rfl := pure_eq_ok.mp same
    exact .cons rendered (statements_of_statement query rendered)
  | .not child, _, _, made => by
    rw [Renderer.condition] at made
    obtain ⟨inner, nested, same⟩ := bind_eq_ok.mp made
    obtain rfl := pure_eq_ok.mp same
    rw [Restriction.subqueries, Condition.subqueries]
    exact statements_of_condition child nested
  | .junction connective children, _, _, made => by
    rw [Renderer.condition] at made
    obtain ⟨conditions, nested, same⟩ := bind_eq_ok.mp made
    obtain rfl := pure_eq_ok.mp same
    rw [Restriction.subqueries, Condition.subqueries]
    exact statements_of_conditions children nested

theorem statements_of_conditions : (children : List Restriction) → {scope : Scope} →
    {conditions : List Condition} → renderer.conditions scope children = .ok conditions →
    List.Forall₂ (fun query part => renderer.statement query = .ok part)
      (Restriction.subqueriesAll children) (Condition.subqueriesAll conditions)
  | [], _, _, made => by
    cases made
    exact .nil
  | child :: children, _, _, made => by
    rw [Renderer.conditions] at made
    obtain ⟨condition, first, made⟩ := bind_eq_ok.mp made
    obtain ⟨others, rest, same⟩ := bind_eq_ok.mp made
    obtain rfl := pure_eq_ok.mp same
    exact List.rel_append (statements_of_condition child first) (statements_of_conditions children rest)

/-- The subqueries of a statement are the statements of those of its query. -/
theorem statements_of_statement : (criteria : Criteria) → {statement : Statement} →
    renderer.statement criteria = .ok statement →
    List.Forall₂ (fun query part => renderer.statement query = .ok part) criteria.subqueries
      statement.subqueries
  | ⟨_, _, _, none, _, _, _, _, _, _⟩, statement, rendered => by
    have tests := (renders_of_statement rendered).condition
    obtain ⟨_, _, _, condition, _, _, _, _⟩ := statement
    cases tests
    exact .nil
  | ⟨_, _, _, some restriction, _, _, _, _, _, _⟩, statement, rendered => by
    have tests := (renders_of_statement rendered).condition
    obtain ⟨_, _, _, condition, _, _, _, _⟩ := statement
    cases tests with
    | some made => exact statements_of_condition restriction made

end

end Rendering
end RecordQuery.Sql
