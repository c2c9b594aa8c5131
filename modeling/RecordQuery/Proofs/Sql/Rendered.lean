import RecordQuery.Proofs.Compile.Accepted
import RecordQuery.Proofs.Document.Encoded
import RecordQuery.Proofs.Schema.Declared
import RecordQuery.Proofs.Sql.Scoped

namespace RecordQuery

/-- A value that is held against what a path leads to. -/
structure Compared where
  type : RecordType
  path : Text
  value : Value

mutual

/-- The values that are compared by kind, in order, those in subqueries included. A pattern is not among
them, for it is held against text. -/
def Restriction.compared (type : RecordType) : Restriction → List Compared
  | .missing | .isNull _ => []
  | .comparison comparator path value => if comparator.isPattern then [] else [⟨type, path, value⟩]
  | .inValues path values => values.map (⟨type, path, ·⟩)
  | .inQuery _ query => query.compared
  | .junction _ children => Restriction.comparedAll type children
  | .not child => child.compared type

def Restriction.comparedAll (type : RecordType) : List Restriction → List Compared
  | [] => []
  | child :: children => child.compared type ++ Restriction.comparedAll type children

def Criteria.compared : Criteria → List Compared
  | ⟨_, _, _, none, _, _, _, _, _, _⟩ => []
  | ⟨type, _, _, some restriction, _, _, _, _, _, _⟩ => restriction.compared type

end

theorem Schema.Renderable.leaf {schema : Schema} (renderable : schema.Renderable)
    (member : type ∈ schema.types) (walked : schema.walk type path = .ok route) :
    schema.Linked route.last.owner route.leaf ∧ route.leaf.FormulaWhole := by
  obtain ⟨known, owned⟩ := walkNames_steps member walked route.last (by simp [Route.steps])
  exact ⟨renderable.linked _ known _ owned, renderable.formulas _ known _ owned⟩

namespace Sql

mutual

theorem exists_formula (source : Text) : (expression : Formula) → expression.Whole →
    Schema.checkFormula owner expression = .ok () →
    ∃ value, Scope.formula source owner expression = .ok value
  | .missing, whole, _ => whole.elim
  | .text _, _, _ => ⟨_, rfl⟩
  | .field name, _, checked => by
    rw [Schema.checkFormula] at checked
    split at checked
    · cases checked
    · rename_i field found
      exact ⟨_, by rw [Scope.formula, found]⟩
  | .concat parts, whole, checked => by
    rw [Schema.checkFormula] at checked
    obtain ⟨values, made⟩ := exists_formulas source parts whole checked
    exact ⟨.concat values, by rw [Scope.formula, made]; rfl⟩

theorem exists_formulas (source : Text) : (parts : List Formula) → Formula.WholeAll parts →
    Schema.checkParts owner parts = .ok () →
    ∃ values, Scope.formulas source owner parts = .ok values
  | [], _, _ => ⟨[], rfl⟩
  | part :: parts, ⟨whole, others⟩, checked => by
    rw [Schema.checkParts] at checked
    obtain ⟨_, first, rest⟩ := bind_eq_ok.mp checked
    obtain ⟨value, made⟩ := exists_formula source part whole first
    obtain ⟨values, mades⟩ := exists_formulas source parts others rest
    exact ⟨value :: values, by rw [Scope.formulas, made, mades]; rfl⟩

end

namespace Scope

variable (scope : Scope) (renderable : scope.schema.Renderable) (member : scope.type ∈ scope.schema.types)

include renderable member

theorem exists_value (walked : scope.schema.walk scope.type path = .ok route)
    (single : route.leaf.kind.isCollection = false) :
    ∃ value, scope.column path = .ok (value, route.leaf) := by
  obtain ⟨linked, whole⟩ := renderable.leaf member walked
  rw [column, Scope.walk, mapError_eq_ok.mpr walked, ok_bind]
  simp only
  split
  · exact ⟨_, rfl⟩
  · rw [if_neg (by simp [single])]
    by_cases computed : route.leaf.kind = .formula
    · obtain ⟨given, checked⟩ := linked.formula computed
      obtain ⟨value, made⟩ := exists_formula (scope.source (readFrom route path)) _ (whole given) checked
      rw [if_pos computed, made]
      exact ⟨_, rfl⟩
    · rw [if_neg computed]
      exact ⟨_, rfl⟩

theorem exists_joinsAt (walked : scope.schema.walk scope.type above = .ok route)
    (relationship : route.leaf.kind.isRelationship = true) : ∃ joins, scope.joinsAt above = .ok joins := by
  obtain ⟨linked, -⟩ := renderable.leaf member walked
  obtain ⟨target, leads, inverse⟩ := linked.target relationship
  rw [joinsAt, Scope.walk, mapError_eq_ok.mpr walked, ok_bind]
  simp only [typeNamed, leads, ok_bind]
  split
  · exact ⟨_, rfl⟩
  · rename_i kind
    obtain ⟨back, found⟩ := inverse kind
    rw [fieldNamed, found]
    exact ⟨_, rfl⟩
  · rename_i kind
    obtain ⟨link, known, ⟨self, found⟩, foreign, found'⟩ := linked.linking kind
    simp only [known, ok_bind, fieldNamed, found, found']
    exact ⟨_, rfl⟩
  · rename_i reference inverse association
    cases kind : route.leaf.kind <;> simp_all [Kind.isRelationship]

theorem exists_joins (paths : List Text) : ∃ joins, scope.joins paths = .ok joins := by
  refine exists_bind_eq_ok (exists_mapM_eq_ok ?_) fun joins => ⟨joins.flatten, rfl⟩
  intro above joined
  obtain ⟨path, -, route, walked, before⟩ := mem_strictPrefixes_of_joined joined
  have walked := mapError_eq_ok.mp walked
  obtain ⟨shorter, more, walks, steps⟩ := Schema.walk_strictPrefix before walked
  -- The prefix ends in a step that the path goes beyond.
  have passed : shorter.last ∈ route.above := by simp [steps, Route.steps]
  exact scope.exists_joinsAt renderable member walks (Schema.isRelationship_of_above walked _ passed)

end Scope

theorem isCollection_of_isPrimitive {kind : Kind} (single : kind.isPrimitive = true) :
    kind.isCollection = false := by
  cases kind with
  | inverse => cases single
  | association => cases single
  | _ => rfl

section Frames

variable {schema : Schema} {packages : Packages} {criteria : Criteria} (renderable : schema.Renderable)
  (frames : schema.Frames packages criteria)

include renderable frames

theorem exists_column_of_walk (walked : schema.walk criteria.type path = .ok route)
    (single : route.leaf.kind.isCollection = false) :
    ∃ read, (Scope.ofCriteria schema criteria).column path = .ok read := by
  obtain ⟨value, found⟩ :=
    (Scope.ofCriteria schema criteria).exists_value renderable frames.mem_types walked single
  exact ⟨_, found⟩

theorem exists_outputs : ∃ outputs,
    (Scope.ofCriteria schema criteria).outputs criteria.properties criteria.aggregates = .ok outputs ∧
      outputs ≠ [] := by
  obtain ⟨overCollection, calls⟩ := frames.aggregates
  obtain ⟨outputs, made⟩ : ∃ outputs,
      (Scope.ofCriteria schema criteria).outputs criteria.properties criteria.aggregates = .ok outputs := by
    refine exists_bind_eq_ok (exists_mapM_eq_ok ?_) fun plain =>
      exists_bind_eq_ok (exists_mapM_eq_ok ?_) fun aggregated => ⟨_, rfl⟩
    · intro path listed
      obtain ⟨route, walked, single⟩ := frames.properties path listed
      exact exists_bind_eq_ok
        (exists_column_of_walk renderable frames walked (isCollection_of_isPrimitive single)) fun _ => ⟨_, rfl⟩
    · intro call listed
      obtain ⟨-, route, walked, single, -⟩ := calls call listed
      exact exists_bind_eq_ok
        (exists_column_of_walk renderable frames walked (isCollection_of_isPrimitive single)) fun _ => ⟨_, rfl⟩
  refine ⟨outputs, made, ?_⟩
  obtain ⟨plain, aggregated, rfl, plains, aggregates⟩ := outputs_eq_ok made
  have lengths := plains.length_eq
  have lengths' := aggregates.length_eq
  have selected : 0 < criteria.properties.length ∨ 0 < criteria.aggregates.length :=
    frames.selects.imp List.length_pos_iff.mpr List.length_pos_iff.mpr
  apply List.ne_nil_of_length_pos
  rw [List.length_append]
  omega

theorem exists_complete (filled : outputs ≠ []) (condition : Option Condition) : ∃ statement,
    (Scope.ofCriteria schema criteria).complete criteria outputs condition = .ok statement := by
  refine exists_bind_eq_ok (exists_mapM_eq_ok ?_) fun groupBy =>
    exists_bind_eq_ok (exists_mapM_eq_ok ?_) fun orderBy =>
      exists_bind_eq_ok (Scope.exists_joins _ renderable frames.mem_types criteria.paths) fun joins => ?_
  · intro path listed
    obtain ⟨route, walked, single⟩ := frames.groupBy path listed
    exact exists_bind_eq_ok (exists_column_of_walk renderable frames walked single) fun _ => ⟨_, rfl⟩
  · intro key listed
    obtain ⟨route, walked, single⟩ := frames.orderBy key listed
    exact exists_bind_eq_ok (exists_column_of_walk renderable frames walked single) fun _ => ⟨_, rfl⟩
  · rw [if_neg (by simpa using filled)]
    exact ⟨_, rfl⟩

end Frames

end Sql

/-- The value can be written as a literal for the field it is held against. -/
def Schema.Fits (schema : Schema) (item : Compared) : Prop :=
  ∃ route literal, schema.walk item.type item.path = .ok route ∧
    Sql.literal? route.leaf.kind item.value = some literal

/-- The value is held against this field, and cannot be written as a literal for it. -/
def Schema.Misfits (schema : Schema) (item : Compared) (field : Field) : Prop :=
  ∃ route, schema.walk item.type item.path = .ok route ∧ route.leaf = field ∧
    Sql.literal? field.kind item.value = none

namespace Sql

/-- What becomes of a part of a query with these values: if all fit, it is made; otherwise the first one
that does not is the reason why it is not. -/
inductive Settles (schema : Schema) (items : List Compared) : Except RenderError α → Prop where
  | made (fit : ∀ item ∈ items, schema.Fits item) : Settles schema items (.ok value)
  | refused (whole : items = before ++ item :: after) (fit : ∀ earlier ∈ before, schema.Fits earlier)
      (misfits : schema.Misfits item field) : Settles schema items
        (.error (.schema ⟨.invalidLiteral item.value.written field.kind field.name, [field.name]⟩))

namespace Settles

variable {α β : Type} {schema : Schema} {items more : List Compared} {step : Except RenderError α}
  {next : α → Except RenderError β}

theorem bind (first : Settles schema items step) (second : ∀ value, Settles schema more (next value)) :
    Settles schema (items ++ more) (step >>= next) := by
  cases first with
  | @made value fit =>
    rw [ok_bind]
    have rest := second value
    generalize next value = result at rest ⊢
    cases rest with
    | made others => exact .made (List.forall_mem_append.mpr ⟨fit, others⟩)
    | refused whole others misfits =>
      exact .refused (by rw [whole, List.append_assoc]) (List.forall_mem_append.mpr ⟨fit, others⟩) misfits
  | refused whole fit misfits =>
    exact .refused (by rw [whole, List.append_assoc, List.cons_append]) fit misfits

theorem bind_ok (first : Settles schema items step)
    (second : ∀ value, ∃ result, next value = .ok result) : Settles schema items (step >>= next) := by
  have last : ∀ value, Settles schema [] (next value) := by
    intro value
    obtain ⟨result, same⟩ := second value
    rw [same]
    exact .made (List.forall_mem_nil _)
  simpa using first.bind last

theorem map (first : Settles schema items step) (change : α → β) :
    Settles schema items (do return change (← step)) :=
  first.bind_ok fun _ => ⟨_, rfl⟩

end Settles

section Literals

variable {schema : Schema} {type : RecordType} (walked : schema.walk type path = .ok route)

include walked

theorem settles_literal (value : Value) :
    Settles schema [⟨type, path, value⟩] (Literals.standard.literal route.leaf value) := by
  rw [Literals.standard]
  cases fits : literal? route.leaf.kind value with
  | some literal =>
    simp only [fits]
    exact .made (List.forall_mem_singleton.mpr ⟨route, literal, walked, fits⟩)
  | none =>
    simp only [fits]
    exact .refused (List.nil_append [⟨type, path, value⟩]).symm (List.forall_mem_nil _)
      ⟨route, walked, rfl, fits⟩

theorem settles_literals (values : List Value) : Settles schema (values.map (⟨type, path, ·⟩))
    (values.mapM (Literals.standard.literal route.leaf)) := by
  induction values with
  | nil => exact .made (List.forall_mem_nil _)
  | cons value values ih =>
    rw [List.mapM_cons]
    exact (settles_literal walked value).bind fun literal => ih.map (literal :: ·)

end Literals

variable {schema : Schema} {packages : Packages}

mutual

theorem settles_condition (renderable : schema.Renderable) : (restriction : Restriction) →
    {type : RecordType} → (aliases : Aliases) → type ∈ schema.types →
    schema.Admits packages type restriction →
    Settles schema (restriction.compared type)
      ((⟨schema, .standard⟩ : Renderer).condition ⟨schema, type, aliases⟩ restriction)
  | .missing, _, _, _, admitted => admitted.elim
  | .comparison comparator path value, _, aliases, member, ⟨route, walked, single⟩ => by
    obtain ⟨column, found⟩ := Scope.exists_value ⟨schema, _, aliases⟩ renderable member walked single
    rw [Renderer.condition, Renderer.comparison, found, ok_bind, Restriction.compared]
    simp only
    split
    · exact .made (List.forall_mem_nil _)
    · exact (settles_literal walked value).map _
  | .isNull path, _, aliases, member, ⟨route, walked, single⟩ => by
    obtain ⟨column, found⟩ := Scope.exists_value ⟨schema, _, aliases⟩ renderable member walked single
    rw [Renderer.condition, found]
    exact .made (List.forall_mem_nil _)
  | .inValues path values, _, aliases, member, ⟨⟨route, walked, single⟩, _⟩ => by
    obtain ⟨column, found⟩ := Scope.exists_value ⟨schema, _, aliases⟩ renderable member walked single
    rw [Renderer.condition, found]
    exact (settles_literals walked values).map _
  | .inQuery path query, _, aliases, member, ⟨⟨route, walked, single, _⟩, _, accepted⟩ => by
    obtain ⟨column, found⟩ := Scope.exists_value ⟨schema, _, aliases⟩ renderable member walked single
    rw [Renderer.condition, found]
    exact (settles_statement renderable query accepted).map _
  | .not child, _, aliases, member, admitted => by
    rw [Renderer.condition]
    exact (settles_condition renderable child aliases member admitted).map _
  | .junction _ children, _, aliases, member, ⟨_, admitted⟩ => by
    rw [Renderer.condition]
    exact (settles_conditions renderable children aliases member admitted).map _

theorem settles_conditions (renderable : schema.Renderable) : (children : List Restriction) →
    {type : RecordType} → (aliases : Aliases) → type ∈ schema.types →
    schema.AdmitsAll packages type children →
    Settles schema (Restriction.comparedAll type children)
      ((⟨schema, .standard⟩ : Renderer).conditions ⟨schema, type, aliases⟩ children)
  | [], _, _, _, _ => .made (List.forall_mem_nil _)
  | child :: children, _, aliases, member, ⟨first, rest⟩ => by
    rw [Renderer.conditions]
    exact (settles_condition renderable child aliases member first).bind fun condition =>
      (settles_conditions renderable children aliases member rest).map (condition :: ·)

theorem settles_statement (renderable : schema.Renderable) : (criteria : Criteria) →
    schema.Accepts packages criteria →
    Settles schema criteria.compared ((⟨schema, .standard⟩ : Renderer).statement criteria)
  | ⟨_, _, _, none, _, _, _, _, _, _⟩, frames => by
    obtain ⟨outputs, selects, filled⟩ := exists_outputs renderable frames
    obtain ⟨statement, made⟩ := exists_complete renderable frames filled none
    rw [Renderer.statement, selects, ok_bind, made]
    exact .made (List.forall_mem_nil _)
  | ⟨_, _, _, some restriction, _, _, _, _, _, _⟩, ⟨frames, admitted⟩ => by
    obtain ⟨outputs, selects, filled⟩ := exists_outputs renderable frames
    rw [Renderer.statement, selects, ok_bind]
    exact (settles_condition renderable restriction _ frames.mem_types admitted).bind_ok fun condition =>
      exists_complete renderable frames filled (some condition)

end

/-- In a schema that was read from declarations, whatever a query text compiles to is rendered, if its values
all fit the fields they are compared with. If not, the first one that does not fit is reported, and nothing
else ever is. -/
theorem render_of_compile (declarations : Text) (schema : Schema)
    (loaded : Declarations.load declarations = .ok schema) (packages : Packages) (operators : Text)
    (maxDepth : Nat) (text : Text) (criteria : Criteria)
    (compiled : (⟨schema, packages, operators, maxDepth⟩ : Compiler).compile text = .ok criteria) :
    ((∀ item ∈ criteria.compared, schema.Fits item) ∧
      ∃ sql, (⟨schema, .standard⟩ : Renderer).render criteria = .ok sql) ∨
    ∃ before item after field, criteria.compared = before ++ item :: after ∧
      (∀ earlier ∈ before, schema.Fits earlier) ∧ schema.Misfits item field ∧
      (⟨schema, .standard⟩ : Renderer).render criteria =
        .error (.schema ⟨.invalidLiteral item.value.written field.kind field.name, [field.name]⟩) := by
  have accepted := (Compiler.accepts_of_compile compiled).1
  have settles := (settles_statement (Schema.renderable_of_load loaded) criteria accepted).map Statement.print
  change Settles schema criteria.compared ((⟨schema, .standard⟩ : Renderer).render criteria) at settles
  generalize (⟨schema, .standard⟩ : Renderer).render criteria = result at settles ⊢
  cases settles with
  | made fit => exact .inl ⟨fit, _, rfl⟩
  | refused whole fit misfits => exact .inr ⟨_, _, _, _, whole, fit, misfits, rfl⟩

/-- Rings with an age, which is shown after a word. -/
def ringDeclarations : Text :=
  Text.ofString "types:\n- name: Ring\n  id: t1\n  fields:\n" ++
    Text.ofString "  - name: id\n    id: f1\n    type: id\n" ++
    Text.ofString "  - name: age\n    id: f2\n    type: number\n" ++
    Text.ofString "  - name: mate\n    id: f3\n    type: reference\n    target: Ring\n" ++
    Text.ofString "  - name: title\n    id: f4\n    type: formula\n    formula:\n" ++
    Text.ofString "    - text: Ring\n    - field: age\n"

/-- An age that is no number, in a subquery. -/
def ringText : Text :=
  Text.ofString "SELECT mate.title FROM Ring WHERE age LIKE 'x%' AND mate IN " ++
    Text.ofString "(SELECT mate.id FROM Ring WHERE age > 'old')"

theorem rings_render : ∃ schema criteria, Declarations.load ringDeclarations = .ok schema ∧
    (⟨schema, ⟨"acme", []⟩, [], 32⟩ : Compiler).compile ringText = .ok criteria ∧
    ∃ item ∈ criteria.compared, ∃ field, schema.Misfits item field ∧
      (⟨schema, .standard⟩ : Renderer).render criteria =
        .error (.schema ⟨.invalidLiteral item.value.written field.kind field.name, [field.name]⟩) := by
  have fails : (Declarations.load ringDeclarations).toOption.any (fun schema =>
      ((⟨schema, ⟨"acme", []⟩, [], 32⟩ : Compiler).compile ringText).toOption.any fun criteria =>
        !((⟨schema, .standard⟩ : Renderer).render criteria).toBool) = true := by
    decide +kernel
  obtain ⟨schema, load, fails⟩ := (Option.any_eq_true _ _).mp fails
  obtain ⟨criteria, compile, fails⟩ := (Option.any_eq_true _ _).mp fails
  have loaded := toOption_eq_some.mp load
  have compiled := toOption_eq_some.mp compile
  refine ⟨schema, criteria, loaded, compiled, ?_⟩
  rcases render_of_compile ringDeclarations schema loaded _ _ _ _ _ compiled with
    ⟨-, sql, made⟩ | ⟨before, item, after, field, whole, -, misfits, refused⟩
  · rw [made] at fails
    cases fails
  · exact ⟨item, by simp [whole], field, misfits, refused⟩

end Sql
end RecordQuery
