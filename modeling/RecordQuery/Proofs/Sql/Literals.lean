import RecordQuery.Proofs.Compile.Sources
import RecordQuery.Proofs.Sql.Brackets

/-! The literals of a statement stand for the values of the query, one by one. All else in the statement
is as it would be if there were no values at all. -/
namespace RecordQuery

mutual

/-- The restriction with every value changed. -/
def Restriction.mapValues (change : Value → Value) : Restriction → Restriction
  | .missing => .missing
  | .comparison comparator property value => .comparison comparator property (change value)
  | .isNull property => .isNull property
  | .inValues property values => .inValues property (values.map change)
  | .inQuery property query => .inQuery property (query.mapValues change)
  | .junction connective children => .junction connective (Restriction.mapValuesAll change children)
  | .not child => .not (child.mapValues change)

def Restriction.mapValuesAll (change : Value → Value) : List Restriction → List Restriction
  | [] => []
  | child :: children => child.mapValues change :: Restriction.mapValuesAll change children

/-- The query with every value changed. -/
def Criteria.mapValues (change : Value → Value) : Criteria → Criteria
  | ⟨type, properties, aggregates, none, groupBy, orderBy, limit, offset, aliases, isSubquery⟩ =>
    ⟨type, properties, aggregates, none, groupBy, orderBy, limit, offset, aliases, isSubquery⟩
  | ⟨type, properties, aggregates, some restriction, groupBy, orderBy, limit, offset, aliases, isSubquery⟩ =>
    ⟨type, properties, aggregates, some (restriction.mapValues change), groupBy, orderBy, limit, offset,
      aliases, isSubquery⟩

end

/-- The restriction with null for every value. -/
def Restriction.withoutValues (restriction : Restriction) : Restriction := restriction.mapValues fun _ => .null

def Criteria.withoutValues (criteria : Criteria) : Criteria := criteria.mapValues fun _ => .null

theorem Criteria.mapValues_eq (change : Value → Value) (criteria : Criteria) : criteria.mapValues change =
    { criteria with restriction := criteria.restriction.map (Restriction.mapValues change) } := by
  obtain ⟨_, _, _, restriction, _, _, _, _, _, _⟩ := criteria
  cases restriction <;> rfl

section Paths

variable (change : Value → Value)

mutual

theorem Restriction.visit_mapValues : (restriction : Restriction) →
    ((restriction.mapValues change).visit fun _ => true).filterMap property? =
      (restriction.visit fun _ => true).filterMap property?
  | .missing => rfl
  | .comparison _ _ _ => rfl
  | .isNull _ => rfl
  | .inValues _ _ => rfl
  | .inQuery _ _ => rfl
  | .junction _ children => by
    simp only [mapValues, visit, ↓reduceIte, List.filterMap_cons, property?]
    exact Restriction.visitAll_mapValues children
  | .not child => by
    simp only [mapValues, visit, ↓reduceIte, List.filterMap_cons, property?]
    exact Restriction.visit_mapValues child

theorem Restriction.visitAll_mapValues : (children : List Restriction) →
    (visitAll (fun _ => true) (Restriction.mapValuesAll change children)).filterMap property? =
      (visitAll (fun _ => true) children).filterMap property?
  | [] => rfl
  | child :: children => by
    simp only [mapValuesAll, visitAll, List.filterMap_append, Restriction.visit_mapValues child,
      Restriction.visitAll_mapValues children]

end

/-- The paths of a query do not depend on its values. -/
theorem Criteria.paths_mapValues (criteria : Criteria) :
    (criteria.mapValues change).paths = criteria.paths := by
  have same : Restriction.properties ∘ Restriction.mapValues change = Restriction.properties :=
    funext fun restriction => congrArg List.eraseDups (restriction.visit_mapValues change)
  rw [mapValues_eq, paths, paths]
  simp only [Option.map_map, same]

theorem Sql.Scope.ofCriteria_mapValues (schema : Schema) (criteria : Criteria) :
    Scope.ofCriteria schema (criteria.mapValues change) = Scope.ofCriteria schema criteria := by
  rw [Scope.ofCriteria, Scope.ofCriteria, Scope.aliasesOf, Scope.aliasesOf, criteria.paths_mapValues,
    criteria.mapValues_eq]

end Paths

namespace Sql

/-- A literal of the same form that stands for nothing. -/
def Literal.blank : Literal → Literal
  | .number _ => .number (.ofInt 0)
  | .truth _ => .truth true
  | .quoted _ => .quoted []
  | .verbatim value => .verbatim value

mutual

/-- The condition with every literal blank. -/
def Condition.blank : Condition → Condition
  | .compare left comparator right => .compare left comparator right.blank
  | .isNull value => .isNull value
  | .inValues value values => .inValues value (values.map Literal.blank)
  | .inQuery value query => .inQuery value query.blank
  | .not condition => .not condition.blank
  | .junction connective conditions => .junction connective (Condition.blankAll conditions)

def Condition.blankAll : List Condition → List Condition
  | [] => []
  | condition :: conditions => condition.blank :: Condition.blankAll conditions

def Statement.blank : Statement → Statement
  | ⟨outputs, table, joins, none, groupBy, orderBy, limit, offset⟩ =>
    ⟨outputs, table, joins, none, groupBy, orderBy, limit, offset⟩
  | ⟨outputs, table, joins, some condition, groupBy, orderBy, limit, offset⟩ =>
    ⟨outputs, table, joins, some condition.blank, groupBy, orderBy, limit, offset⟩

end

/-- The literals that the standard ones are when they are blank: their form depends on the field only. -/
def Literals.blank : Literals where
  literal field _ :=
    match field.kind with
    | .number => .ok (.number (.ofInt 0))
    | .boolean => .ok (.truth true)
    | _ => .ok (.quoted [])
  pattern _ _ := .ok (.quoted [])

/-- How a literal stands for a value: as the numeral of its number, as the truth value that it is a word for,
or as a string whose contents are the value as it is written. -/
inductive Literal.Writes (value : Value) : Literal → Prop
  | number (known : number? value = some n) (digits : ∀ b ∈ n.text, inNumeral b = true) :
    Writes value (.number n)
  | truth (known : truth? value.written = some b) : Writes value (.truth b)
  | quoted (contents : scan (Sql.quoted value.written) = some [.quoted .string value.written]) :
    Writes value (.quoted value.written)

theorem Literal.Writes.plain {literal : Literal} (writes : literal.Writes value) : Plain literal.print := by
  cases writes with
  | number _ digits => exact .numeral digits
  | @truth b _ => cases b <;> exact .of_check (by decide)
  | quoted _ => exact .quoted value.written

theorem plain_of_writes {values : List Value} {literals : List Literal}
    (writes : List.Forall₂ (fun value (literal : Literal) => literal.Writes value) values literals) :
    ∀ literal ∈ literals, Plain literal.print := by
  intro literal member
  obtain ⟨value, -, written⟩ := forall₂_mem_right writes member
  exact written.plain

theorem truth?_written (b : Bool) : truth? (Value.bool b).written = some b := by
  cases b <;> decide

theorem literal?_cases (found : literal? kind value = some literal) :
    (kind = .number ∧ ∃ n, number? value = some n ∧ literal = .number n) ∨
      (kind = .boolean ∧ ∃ b, truth? value.written = some b ∧ literal = .truth b) ∨
      (kind ≠ .number ∧ kind ≠ .boolean ∧ literal = .quoted value.written) := by
  unfold literal? at found
  split at found
  · obtain ⟨n, known, rfl⟩ := Option.map_eq_some_iff.mp found
    exact .inl ⟨rfl, n, known, rfl⟩
  · cases found
    exact .inr (.inl ⟨rfl, _, truth?_written _, rfl⟩)
  · obtain ⟨b, known, rfl⟩ := Option.map_eq_some_iff.mp found
    exact .inr (.inl ⟨rfl, b, known, rfl⟩)
  · rename_i notNumber notBoolean _
    obtain ⟨-, same⟩ := Option.ite_none_right_eq_some.mp found
    cases same
    exact .inr (.inr ⟨notNumber, notBoolean, rfl⟩)

theorem writes_of_standard (made : Literals.standard.literal field value = .ok literal) :
    literal.Writes value ∧ Literals.blank.literal field .null = .ok literal.blank := by
  simp only [Literals.standard] at made
  split at made
  · rename_i found
    cases made
    rcases literal?_cases found with ⟨isNumber, n, known, rfl⟩ | ⟨isBoolean, b, known, rfl⟩ |
      ⟨notNumber, notBoolean, rfl⟩
    · exact ⟨.number known fun _ => inNumeral_of_mem_text, by simp [Literals.blank, isNumber, Literal.blank]⟩
    · exact ⟨.truth known, by simp [Literals.blank, isBoolean, Literal.blank]⟩
    · refine ⟨.quoted (scan_quoted .string _), ?_⟩
      simp only [Literals.blank]
      rfl
  · cases made

theorem Statement.literals_of_condition {statement : Statement} {condition : Option Condition}
    (same : statement.condition = condition) :
    statement.literals = (condition.map Condition.literals).getD [] := by
  obtain ⟨_, _, _, own, _, _, _, _⟩ := statement
  subst same
  cases own <;> rfl

section Mirror

variable {schema : Schema} {scope : Scope}

/-- The rendering without values is the blank one, and the literals stand for the values. -/
structure Mirrors (schema : Schema) (scope : Scope) (restriction : Restriction) (condition : Condition) :
    Prop where
  blank : (⟨schema, .blank⟩ : Renderer).condition scope restriction.withoutValues = .ok condition.blank
  values : List.Forall₂ (fun value (literal : Literal) => literal.Writes value) restriction.values
    condition.literals

theorem mirrors_comparison (made : (⟨schema, .standard⟩ : Renderer).condition scope
      (.comparison comparator property value) = .ok condition) :
    Mirrors schema scope (.comparison comparator property value) condition := by
  rw [Renderer.condition] at made
  obtain ⟨⟨column, field⟩, found, made⟩ := bind_eq_ok.mp made
  simp only at made
  split at made
  · rename_i pattern
    obtain ⟨literal, written, same⟩ := bind_eq_ok.mp made
    cases written
    obtain rfl := pure_eq_ok.mp same
    refine ⟨?_, .cons (.quoted (scan_quoted .string _)) .nil⟩
    rw [Restriction.withoutValues, Restriction.mapValues, Renderer.condition]
    refine bind_eq_ok.mpr ⟨(column, field), found, ?_⟩
    simp only [pattern, ↓reduceIte]
    exact bind_eq_ok.mpr ⟨_, rfl, rfl⟩
  · rename_i plain
    obtain ⟨literal, written, same⟩ := bind_eq_ok.mp made
    obtain rfl := pure_eq_ok.mp same
    obtain ⟨writes, blank⟩ := writes_of_standard written
    refine ⟨?_, .cons writes .nil⟩
    rw [Restriction.withoutValues, Restriction.mapValues, Renderer.condition]
    refine bind_eq_ok.mpr ⟨(column, field), found, ?_⟩
    simp only [plain]
    exact bind_eq_ok.mpr ⟨_, blank, rfl⟩

theorem mirrors_inValues (made : (⟨schema, .standard⟩ : Renderer).condition scope
      (.inValues property values) = .ok condition) :
    Mirrors schema scope (.inValues property values) condition := by
  rw [Renderer.condition] at made
  obtain ⟨⟨column, field⟩, found, made⟩ := bind_eq_ok.mp made
  obtain ⟨literals, written, same⟩ := bind_eq_ok.mp made
  obtain rfl := pure_eq_ok.mp same
  have each := (list_mapM_eq_ok.mp written).imp fun _ _ => writes_of_standard
  refine ⟨?_, each.imp fun _ _ both => both.1⟩
  rw [Restriction.withoutValues, Restriction.mapValues, Renderer.condition]
  refine bind_eq_ok.mpr ⟨(column, field), found, bind_eq_ok.mpr ⟨literals.map Literal.blank, ?_, rfl⟩⟩
  refine list_mapM_eq_ok.mpr (List.forall₂_map_left_iff.mpr (List.forall₂_map_right_iff.mpr ?_))
  exact each.imp fun _ _ both => both.2

theorem complete_blank {criteria : Criteria} {condition : Option Condition}
    (made : scope.complete criteria outputs condition = .ok statement) :
    scope.complete criteria.withoutValues outputs (condition.map Condition.blank) = .ok statement.blank ∧
      statement.condition = condition := by
  obtain ⟨groupBy, groups, made⟩ := bind_eq_ok.mp made
  obtain ⟨orderBy, orders, made⟩ := bind_eq_ok.mp made
  obtain ⟨joins, joined, made⟩ := bind_eq_ok.mp made
  obtain ⟨filled, same⟩ := guard_eq_ok.mp made
  obtain rfl := pure_eq_ok.mp same
  refine ⟨?_, rfl⟩
  have paths := criteria.paths_mapValues fun _ => .null
  rw [Criteria.withoutValues]
  rw [criteria.mapValues_eq] at paths ⊢
  refine bind_eq_ok.mpr ⟨groupBy, groups, bind_eq_ok.mpr ⟨orderBy, orders, bind_eq_ok.mpr ⟨joins, ?_, ?_⟩⟩⟩
  · rw [paths]
    exact joined
  · refine guard_eq_ok.mpr ⟨filled, pure_eq_ok.mpr ?_⟩
    cases condition <;> rfl

mutual

theorem mirrors_of_condition : (restriction : Restriction) → {scope : Scope} → {condition : Condition} →
    (⟨schema, .standard⟩ : Renderer).condition scope restriction = .ok condition →
    Mirrors schema scope restriction condition
  | .missing, _, _, made => by cases made
  | .comparison _ _ _, _, _, made => mirrors_comparison made
  | .isNull property, _, _, made => by
    rw [Renderer.condition] at made
    obtain ⟨column, found, same⟩ := bind_eq_ok.mp made
    obtain rfl := pure_eq_ok.mp same
    refine ⟨?_, .nil⟩
    rw [Restriction.withoutValues, Restriction.mapValues, Renderer.condition]
    exact bind_eq_ok.mpr ⟨column, found, rfl⟩
  | .inValues _ _, _, _, made => mirrors_inValues made
  | .inQuery property query, _, _, made => by
    rw [Renderer.condition] at made
    obtain ⟨column, found, made⟩ := bind_eq_ok.mp made
    obtain ⟨statement, rendered, same⟩ := bind_eq_ok.mp made
    obtain rfl := pure_eq_ok.mp same
    obtain ⟨blank, values⟩ := mirrors_of_statement query rendered
    refine ⟨?_, values⟩
    rw [Restriction.withoutValues, Restriction.mapValues, Renderer.condition]
    exact bind_eq_ok.mpr ⟨column, found, bind_eq_ok.mpr ⟨_, blank, rfl⟩⟩
  | .junction connective children, _, _, made => by
    rw [Renderer.condition] at made
    obtain ⟨conditions, rendered, same⟩ := bind_eq_ok.mp made
    obtain rfl := pure_eq_ok.mp same
    obtain ⟨blank, values⟩ := mirrors_of_conditions children rendered
    refine ⟨?_, values⟩
    rw [Restriction.withoutValues, Restriction.mapValues, Renderer.condition]
    exact bind_eq_ok.mpr ⟨_, blank, rfl⟩
  | .not child, _, _, made => by
    rw [Renderer.condition] at made
    obtain ⟨condition, rendered, same⟩ := bind_eq_ok.mp made
    obtain rfl := pure_eq_ok.mp same
    obtain ⟨blank, values⟩ := mirrors_of_condition child rendered
    refine ⟨?_, values⟩
    rw [Restriction.withoutValues, Restriction.mapValues, Renderer.condition]
    exact bind_eq_ok.mpr ⟨_, blank, rfl⟩

theorem mirrors_of_conditions : (children : List Restriction) → {scope : Scope} →
    {conditions : List Condition} →
    (⟨schema, .standard⟩ : Renderer).conditions scope children = .ok conditions →
    (⟨schema, .blank⟩ : Renderer).conditions scope (Restriction.mapValuesAll (fun _ => .null) children) =
        .ok (Condition.blankAll conditions) ∧
      List.Forall₂ (fun value (literal : Literal) => literal.Writes value) (Restriction.valuesAll children)
        (Condition.literalsAll conditions)
  | [], _, _, made => by
    cases made
    exact ⟨rfl, .nil⟩
  | child :: children, _, _, made => by
    rw [Renderer.conditions] at made
    obtain ⟨condition, first, made⟩ := bind_eq_ok.mp made
    obtain ⟨conditions, rest, same⟩ := bind_eq_ok.mp made
    obtain rfl := pure_eq_ok.mp same
    obtain ⟨blank, values⟩ := mirrors_of_condition child first
    obtain ⟨blanks, more⟩ := mirrors_of_conditions children rest
    refine ⟨?_, List.rel_append values more⟩
    rw [Restriction.mapValuesAll, Renderer.conditions]
    exact bind_eq_ok.mpr ⟨_, blank, bind_eq_ok.mpr ⟨_, blanks, rfl⟩⟩

theorem mirrors_of_statement : (criteria : Criteria) → {statement : Statement} →
    (⟨schema, .standard⟩ : Renderer).statement criteria = .ok statement →
    (⟨schema, .blank⟩ : Renderer).statement criteria.withoutValues = .ok statement.blank ∧
      List.Forall₂ (fun value (literal : Literal) => literal.Writes value) criteria.values statement.literals
  | ⟨type, properties, aggregates, none, groupBy, orderBy, limit, offset, aliases, isSubquery⟩, _, made => by
    rw [Renderer.statement] at made
    obtain ⟨outputs, selected, completed⟩ := bind_eq_ok.mp made
    obtain ⟨blank, conditioned⟩ := complete_blank completed
    refine ⟨?_, ?_⟩
    · rw [Criteria.withoutValues, Criteria.mapValues, Renderer.statement]
      exact bind_eq_ok.mpr ⟨outputs, selected, blank⟩
    · rw [Statement.literals_of_condition conditioned]
      exact .nil
  | ⟨type, properties, aggregates, some restriction, groupBy, orderBy, limit, offset, aliases, isSubquery⟩, _,
      made => by
    rw [Renderer.statement] at made
    obtain ⟨outputs, selected, rest⟩ := bind_eq_ok.mp made
    obtain ⟨condition, rendered, completed⟩ := bind_eq_ok.mp rest
    obtain ⟨mirrored, values⟩ := mirrors_of_condition restriction rendered
    obtain ⟨blank, conditioned⟩ := complete_blank completed
    refine ⟨?_, ?_⟩
    · have scopes := Scope.ofCriteria_mapValues (fun _ => .null) schema
        ⟨type, properties, aggregates, some restriction, groupBy, orderBy, limit, offset, aliases, isSubquery⟩
      rw [Criteria.withoutValues] at blank ⊢
      rw [Criteria.mapValues] at scopes blank ⊢
      rw [Renderer.statement]
      simp only [scopes]
      exact bind_eq_ok.mpr ⟨outputs, selected, bind_eq_ok.mpr ⟨_, mirrored, blank⟩⟩
    · rw [Statement.literals_of_condition conditioned]
      exact values

end

end Mirror

end Sql
end RecordQuery
