import RecordQuery.Proofs.Aliases.Registering
import RecordQuery.Proofs.Compile.Lawful
import RecordQuery.Proofs.Document.Subqueries
import RecordQuery.Proofs.Sql.Scoped

/-! Queries that have lost aliases. A query is rendered under its own aliases, or under fresh ones if it lacks
some that its paths need. A query that was compiled or decoded has those that would be made afresh, so it
does not matter which of them are lost, in it or in its subqueries. -/
namespace RecordQuery

/-- Fewer aliases that still are there for every prefix are all of them. -/
theorem Aliases.eq_of_sublist {fewer aliases : Aliases} (kept : fewer.Sublist aliases)
    (once : aliases.keys.Nodup) (all : ∀ above ∈ aliases.keys, above ∈ fewer.keys) : fewer = aliases := by
  have longer := (List.subperm_of_subset once all).length_le
  rw [keys, keys, List.length_map, List.length_map] at longer
  exact kept.eq_of_length_le longer

mutual

/-- The first restriction is the second one, whose subqueries may have lost aliases. -/
inductive Restriction.Forgets : Restriction → Restriction → Prop where
  | same : Restriction.Forgets restriction restriction
  | inQuery (nested : Criteria.Forgets query full) :
      Restriction.Forgets (.inQuery path query) (.inQuery path full)
  | junction (each : Restriction.ForgetsAll children fulls) :
      Restriction.Forgets (.junction connective children) (.junction connective fulls)
  | not (negated : Restriction.Forgets child full) : Restriction.Forgets (.not child) (.not full)

inductive Restriction.ForgetsAll : List Restriction → List Restriction → Prop where
  | nil : Restriction.ForgetsAll [] []
  | cons (first : Restriction.Forgets child full) (rest : Restriction.ForgetsAll children fulls) :
      Restriction.ForgetsAll (child :: children) (full :: fulls)

/-- The first query is the second one, but it may have lost any of its aliases, and so may each of the
subqueries in it. -/
inductive Criteria.Forgets : Criteria → Criteria → Prop where
  | unrestricted {fewer aliases : Aliases} (kept : fewer.Sublist aliases) :
      Criteria.Forgets
        ⟨type, properties, aggregates, none, groupBy, orderBy, limit, offset, fewer, isSubquery⟩
        ⟨type, properties, aggregates, none, groupBy, orderBy, limit, offset, aliases, isSubquery⟩
  | restricted {fewer aliases : Aliases} (kept : fewer.Sublist aliases)
      (inner : Restriction.Forgets restriction full) :
      Criteria.Forgets
        ⟨type, properties, aggregates, some restriction, groupBy, orderBy, limit, offset, fewer, isSubquery⟩
        ⟨type, properties, aggregates, some full, groupBy, orderBy, limit, offset, aliases, isSubquery⟩

end

mutual

def Restriction.unaliased : Restriction → Restriction
  | .missing => .missing
  | .comparison comparator path value => .comparison comparator path value
  | .isNull path => .isNull path
  | .inValues path values => .inValues path values
  | .inQuery path query => .inQuery path query.unaliased
  | .junction connective children => .junction connective (Restriction.unaliasedAll children)
  | .not child => .not child.unaliased

def Restriction.unaliasedAll : List Restriction → List Restriction
  | [] => []
  | child :: children => child.unaliased :: Restriction.unaliasedAll children

/-- The query without any aliases, and none in its subqueries. -/
def Criteria.unaliased : Criteria → Criteria
  | ⟨type, properties, aggregates, none, groupBy, orderBy, limit, offset, _, isSubquery⟩ =>
    ⟨type, properties, aggregates, none, groupBy, orderBy, limit, offset, [], isSubquery⟩
  | ⟨type, properties, aggregates, some restriction, groupBy, orderBy, limit, offset, _, isSubquery⟩ =>
    ⟨type, properties, aggregates, some restriction.unaliased, groupBy, orderBy, limit, offset, [], isSubquery⟩

end

mutual

theorem Restriction.forgets_unaliased : (restriction : Restriction) →
    Restriction.Forgets restriction.unaliased restriction
  | .missing | .comparison _ _ _ | .isNull _ | .inValues _ _ => .same
  | .inQuery _ query => .inQuery query.forgets_unaliased
  | .junction _ children => .junction (Restriction.forgetsAll_unaliasedAll children)
  | .not child => .not child.forgets_unaliased

theorem Restriction.forgetsAll_unaliasedAll : (children : List Restriction) →
    Restriction.ForgetsAll (Restriction.unaliasedAll children) children
  | [] => .nil
  | child :: children => .cons child.forgets_unaliased (Restriction.forgetsAll_unaliasedAll children)

theorem Criteria.forgets_unaliased : (criteria : Criteria) → Criteria.Forgets criteria.unaliased criteria
  | ⟨_, _, _, none, _, _, _, _, _, _⟩ => .unrestricted (List.nil_sublist _)
  | ⟨_, _, _, some restriction, _, _, _, _, _, _⟩ =>
    .restricted (List.nil_sublist _) restriction.forgets_unaliased

end

mutual

theorem Restriction.Forgets.leaves : Restriction.Forgets restriction full →
    (restriction.visit fun _ => true).filterMap property? = (full.visit fun _ => true).filterMap property?
  | .same => rfl
  | .inQuery _ => rfl
  | .junction each => by
    simp only [visit, ↓reduceIte, List.filterMap_cons, property?]
    exact each.leaves
  | .not negated => by
    simp only [visit, ↓reduceIte, List.filterMap_cons, property?]
    exact negated.leaves

theorem Restriction.ForgetsAll.leaves : Restriction.ForgetsAll children fulls →
    (visitAll (fun _ => true) children).filterMap property? = (visitAll (fun _ => true) fulls).filterMap property?
  | .nil => rfl
  | .cons first rest => by
    rw [visitAll, visitAll, List.filterMap_append, List.filterMap_append, first.leaves, rest.leaves]

end

namespace Criteria.Forgets

theorem kept {query full : Criteria} (forgets : Forgets query full) :
    query.aliases.Sublist full.aliases := by
  cases forgets with
  | unrestricted kept => exact kept
  | restricted kept => exact kept

theorem paths {query full : Criteria} (forgets : Forgets query full) : query.paths = full.paths := by
  cases forgets with
  | unrestricted => rfl
  | restricted _ inner =>
    simp only [Criteria.paths, Option.map_some, Option.getD_some, Restriction.properties, inner.leaves]

/-- Either nothing was lost, or all aliases are made again. -/
theorem aliasesOf {query full : Criteria} (forgets : Forgets query full)
    (own : full.aliases = Aliases.ofPaths full.paths) : Sql.Scope.aliasesOf query = full.aliases := by
  rw [Sql.Scope.aliasesOf, forgets.paths, ← own]
  split
  · rename_i covered
    refine Aliases.eq_of_sublist forgets.kept (own ▸ Aliases.nodup_keys_ofPaths full.paths) ?_
    intro above member
    obtain ⟨entry, inside, rfl⟩ := List.mem_map.mp member
    exact Aliases.isSome_name?_iff.mp (List.all_eq_true.mp covered entry inside)
  · rfl

end Criteria.Forgets

namespace Sql

/-- Each query has the aliases that its paths need. -/
def OwnAliases (queries : List Criteria) : Prop :=
  ∀ query ∈ queries, query.aliases = Aliases.ofPaths query.paths

theorem ofCriteria_of_forgets (schema : Schema) {query full : Criteria} (forgets : Criteria.Forgets query full)
    (own : full.aliases = Aliases.ofPaths full.paths) :
    Scope.ofCriteria schema query = Scope.ofCriteria schema full := by
  rw [Scope.ofCriteria, Scope.ofCriteria, forgets.aliasesOf own, aliasesOf_eq own]
  cases forgets <;> rfl

theorem complete_of_forgets (scope : Scope) {query full : Criteria} (forgets : Criteria.Forgets query full)
    (outputs : List Output) (condition : Option Condition) :
    scope.complete query outputs condition = scope.complete full outputs condition := by
  rw [Scope.complete, Scope.complete, forgets.paths]
  cases forgets <;> rfl

variable (renderer : Renderer)

mutual

theorem condition_of_forgets (scope : Scope) : Restriction.Forgets restriction full →
    OwnAliases full.subqueries → renderer.condition scope restriction = renderer.condition scope full
  | .same, _ => rfl
  | .inQuery nested, own => by
    rw [Renderer.condition, Renderer.condition, statement_of_forgets nested own]
  | .junction each, own => by
    rw [Renderer.condition, Renderer.condition, conditions_of_forgets scope each own]
  | .not negated, own => by
    rw [Renderer.condition, Renderer.condition, condition_of_forgets scope negated own]

theorem conditions_of_forgets (scope : Scope) : Restriction.ForgetsAll children fulls →
    OwnAliases (Restriction.subqueriesAll fulls) →
    renderer.conditions scope children = renderer.conditions scope fulls
  | .nil, _ => rfl
  | .cons first rest, own => by
    obtain ⟨here, later⟩ := List.forall_mem_append.mp own
    rw [Renderer.conditions, Renderer.conditions, condition_of_forgets scope first here,
      conditions_of_forgets scope rest later]

theorem statement_of_forgets {query full : Criteria} : Criteria.Forgets query full →
    OwnAliases (full :: full.subqueries) → renderer.statement query = renderer.statement full
  | .unrestricted kept, own => by
    rw [Renderer.statement, Renderer.statement,
      ofCriteria_of_forgets renderer.schema (.unrestricted kept) (own _ (.head _))]
    simp only [complete_of_forgets _ (.unrestricted kept)]
  | .restricted kept inner, own => by
    obtain ⟨here, nested⟩ := List.forall_mem_cons.mp own
    rw [Renderer.statement, Renderer.statement,
      ofCriteria_of_forgets renderer.schema (.restricted kept inner) here]
    simp only [complete_of_forgets _ (.restricted kept inner), condition_of_forgets _ inner nested]

end

/-- It makes no difference whether the aliases of a query are registered one path after another, as a text or
a document brings them, or for all paths in the end. What a text or a document is turned into has just the
aliases that its paths need, and so have the subqueries in it; and if any of them are lost, be it all, it is
rendered as before. -/
theorem render_eq_of_forgets (compiler : Compiler) (decoder : Decoder) :
    compiler.registerText = compiler.compile ∧ decoder.registerDocument = decoder.decode ∧
    ∀ criteria, (∃ text, compiler.compile text = .ok criteria) ∨
        (∃ document, decoder.decode document = .ok criteria) →
      (∀ query ∈ criteria :: criteria.subqueries, query.aliases = query.paths.foldl Aliases.addPath []) ∧
      Criteria.Forgets criteria.unaliased criteria ∧
      ∀ fewer, Criteria.Forgets fewer criteria → ∀ renderer : Renderer,
        renderer.render fewer = renderer.render criteria := by
  refine ⟨funext compiler.registerText_eq, funext decoder.registerDocument_eq, ?_⟩
  intro criteria made
  have own : OwnAliases (criteria :: criteria.subqueries) := by
    rcases made with ⟨text, compiled⟩ | ⟨document, decoded⟩
    · exact fun query member => (Compiler.aliases_of_compile compiled query member).2
    · exact fun query member => (Decoder.aliases_of_decode decoded query member).2
  refine ⟨own, criteria.forgets_unaliased, ?_⟩
  intro fewer forgets renderer
  rw [Renderer.render, Renderer.render, statement_of_forgets renderer forgets own]

/-- A join in the query, and another one in its subquery. -/
def joinedText : Text :=
  "SELECT whole.name FROM Coop WHERE whole IN (SELECT id FROM Coop WHERE parts.name ISNULL)"

theorem coops_unaliased : ∃ criteria, coopCompiler.compile joinedText = .ok criteria ∧
    (criteria :: criteria.subqueries).flatMap (·.aliases.keys) = [Text.ofString "whole", Text.ofString "parts"] ∧
    ∃ sql, (⟨coopCompiler.schema, .standard⟩ : Renderer).render criteria.unaliased = .ok sql := by
  let renderer : Renderer := ⟨coopCompiler.schema, .standard⟩
  have evaluated : (coopCompiler.compile joinedText).toOption.map (fun criteria =>
      ((criteria :: criteria.subqueries).flatMap (·.aliases.keys), (renderer.render criteria).toBool)) =
      some ([Text.ofString "whole", Text.ofString "parts"], true) := by
    decide +kernel
  obtain ⟨criteria, compiled, outcome⟩ := Option.map_eq_some_iff.mp evaluated
  obtain ⟨keys, succeeds⟩ := Prod.mk.inj outcome
  have compiled := toOption_eq_some.mp compiled
  obtain ⟨sql, rendered⟩ := exists_ok_of_toBool succeeds
  obtain ⟨-, forgets, same⟩ :=
    (render_eq_of_forgets coopCompiler coopDecoder).2.2 criteria (.inl ⟨_, compiled⟩)
  exact ⟨criteria, compiled, keys, sql, (same _ forgets renderer).trans rendered⟩

end Sql
end RecordQuery
