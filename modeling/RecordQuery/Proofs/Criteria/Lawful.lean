import RecordQuery.Proofs.Criteria.Accepted
import RecordQuery.Proofs.Success

namespace RecordQuery

mutual

/-- The nodes of a restriction, those of its subqueries apart. -/
def Restriction.nodes : Restriction → List Restriction
  | .missing => [.missing]
  | .comparison comparator path value => [.comparison comparator path value]
  | .isNull path => [.isNull path]
  | .inValues path values => [.inValues path values]
  | .inQuery path query => [.inQuery path query]
  | .junction connective children => .junction connective children :: Restriction.nodesAll children
  | .not child => .not child :: child.nodes

def Restriction.nodesAll : List Restriction → List Restriction
  | [] => []
  | child :: children => child.nodes ++ Restriction.nodesAll children

end

mutual

/-- The subqueries of a restriction and those within them. -/
def Restriction.subqueries : Restriction → List Criteria
  | .missing | .comparison _ _ _ | .isNull _ | .inValues _ _ => []
  | .inQuery _ query => query :: query.subqueries
  | .junction _ children => Restriction.subqueriesAll children
  | .not child => child.subqueries

def Restriction.subqueriesAll : List Restriction → List Criteria
  | [] => []
  | child :: children => child.subqueries ++ Restriction.subqueriesAll children

/-- The subqueries of a query, however deep they are nested. -/
def Criteria.subqueries : Criteria → List Criteria
  | ⟨_, _, _, none, _, _, _, _, _, _⟩ => []
  | ⟨_, _, _, some restriction, _, _, _, _, _, _⟩ => restriction.subqueries

end

theorem Restriction.mem_nodesAll_iff :
    node ∈ Restriction.nodesAll children ↔ ∃ child ∈ children, node ∈ child.nodes := by
  induction children with
  | nil => simp [nodesAll]
  | cons child children ih => simp [nodesAll, ih]

theorem Restriction.mem_subqueriesAll_iff :
    query ∈ Restriction.subqueriesAll children ↔ ∃ child ∈ children, query ∈ child.subqueries := by
  induction children with
  | nil => simp [subqueriesAll]
  | cons child children ih => simp [subqueriesAll, ih]

theorem Criteria.mem_subqueries_iff {criteria : Criteria} :
    query ∈ criteria.subqueries ↔ ∃ restriction ∈ criteria.restriction, query ∈ restriction.subqueries := by
  obtain ⟨_, _, _, restriction, _, _, _, _, _, _⟩ := criteria
  cases restriction <;> simp [subqueries]

theorem Criteria.checkGrouping_eq_ok_iff {criteria : Criteria} :
    criteria.checkGrouping = .ok () ↔
      (criteria.aggregates ≠ [] ∨ criteria.groupBy ≠ [] →
        ∀ path ∈ criteria.properties, path ∈ criteria.groupBy) := by
  have grouped : criteria.ungrouped = [] ↔ ∀ path ∈ criteria.properties, path ∈ criteria.groupBy := by
    simp [ungrouped, List.filter_eq_nil_iff]
  rw [← grouped, checkGrouping]
  by_cases aggregation : criteria.hasAggregation = true
  · have aggregated : criteria.aggregates ≠ [] ∨ criteria.groupBy ≠ [] := by
      simpa [hasAggregation] using aggregation
    simp [aggregation, aggregated]
  · have unaggregated : ¬ (criteria.aggregates ≠ [] ∨ criteria.groupBy ≠ []) := by
      simpa [hasAggregation] using aggregation
    simp [aggregation, unaggregated]

theorem checkAggregate_eq_ok_iff :
    checkAggregate function path field = .ok () ↔ (function ≠ .count → field.kind = .number) := by
  have numeric : field.kind.isNumeric = true ↔ field.kind = .number := by
    cases field.kind <;> simp [Kind.isNumeric]
  rw [checkAggregate, ← numeric]
  cases function <;> cases field.kind.isNumeric <;> simp [Aggregate.needsNumber]

namespace Schema

variable {schema : Schema} {packages : Packages} {criteria : Criteria}

/-- The subquery selects one property, which holds the same kind of value as the field. -/
def SelectsLike (schema : Schema) (field : Field) (subquery : Criteria) : Prop :=
  ∃ column route, subquery.properties = [column] ∧ subquery.aggregates = [] ∧
    schema.walk subquery.type column = .ok route ∧ route.leaf.kind ≠ .formula ∧
    route.leaf.kind.compared = field.kind.compared

theorem checkSubquery_eq_ok_iff :
    schema.checkSubquery path field subquery = .ok () ↔ schema.SelectsLike field subquery := by
  rw [checkSubquery, SelectsLike]
  split
  · rename_i column properties aggregates
    simp only [bind_eq_ok, guard_eq_ok]
    constructor
    · rintro ⟨route, walked, plain, same⟩
      refine ⟨column, route, properties, aggregates, walked, plain, ?_⟩
      by_contra differ
      simp [differ] at same
    · rintro ⟨_, route, only, -, walked, plain, same⟩
      cases properties.symm.trans only
      refine ⟨route, walked, plain, ?_⟩
      rw [if_neg (not_not.mpr same)]
      rfl
  · rename_i unlike
    constructor
    · intro checked
      cases checked
    · rintro ⟨column, _, only, noCalls, -⟩
      exact absurd noCalls (unlike column only)

/-- The node makes sense in a restriction on rows of this type. -/
def LawfulNode (schema : Schema) (type : RecordType) : Restriction → Prop
  | .missing => False
  | .comparison _ path _ => schema.HasKey type path
  | .isNull path => schema.HasKey type path
  | .inValues path values => schema.HasKey type path ∧ values ≠ []
  | .inQuery path query =>
    ∃ route, schema.walk type path = .ok route ∧ route.leaf.kind.isCollection = false ∧
      schema.SelectsLike route.leaf query ∧ query.isSubquery = true
  | .junction _ children => 2 ≤ children.length
  | .not _ => True

/-- The function has a name, and applies to the single values that its path leads to. -/
def LawfulCall (schema : Schema) (type : RecordType) (call : AggregateCall) : Prop :=
  call.function ≠ .unnamed ∧ ∃ route, schema.walk type call.property = .ok route ∧
    route.leaf.kind.isPrimitive = true ∧ (call.function ≠ .count → route.leaf.kind = .number)

/-- The path passes through or ends in a collection. -/
def OverCollection (schema : Schema) (type : RecordType) (path : Text) : Prop :=
  ∃ route, schema.walk type path = .ok route ∧ route.isCollection = true

/-- The rules that a query obeys by its parts, each apart from the others or held against the keys. -/
structure Consistent (schema : Schema) (criteria : Criteria) : Prop where
  distinct : criteria.properties.Nodup
  properties : ∀ path ∈ criteria.properties, schema.HasValue criteria.type path
  aggregates : ∀ call ∈ criteria.aggregates, schema.LawfulCall criteria.type call
  grouped : criteria.aggregates ≠ [] ∨ criteria.groupBy ≠ [] →
    ∀ path ∈ criteria.properties, path ∈ criteria.groupBy
  distinctKeys : criteria.groupBy.Nodup
  groupBy : ∀ path ∈ criteria.groupBy, schema.HasKey criteria.type path
  orderBy : ∀ key ∈ criteria.orderBy, schema.HasKey criteria.type key.property
  restriction : ∀ restriction ∈ criteria.restriction, ∀ node ∈ restriction.nodes,
    schema.LawfulNode criteria.type node
  limit : ∀ count ∈ criteria.limit, 0 ≤ count
  offset : ∀ count ∈ criteria.offset, 0 ≤ count
  aliases : criteria.aliases = Aliases.ofPaths criteria.paths

/-- The rules for the select list as a whole: something is selected, and aggregates over collections
are not mixed with others. -/
structure LawfulSelect (schema : Schema) (criteria : Criteria) : Prop where
  selects : criteria.properties ≠ [] ∨ criteria.aggregates ≠ []
  unmixed : ∀ first ∈ criteria.aggregates, ∀ second ∈ criteria.aggregates,
    schema.OverCollection criteria.type first.property →
    schema.OverCollection criteria.type second.property

/-- All the rules for a query, its subqueries apart. -/
structure Lawful (schema : Schema) (criteria : Criteria) : Prop where
  consistent : schema.Consistent criteria
  select : schema.LawfulSelect criteria

/-- A query that can be a subquery has nothing to mix. -/
theorem LawfulSelect.of_selectsLike (like : schema.SelectsLike field criteria) :
    schema.LawfulSelect criteria := by
  obtain ⟨column, _, only, noCalls, -⟩ := like
  refine ⟨.inl (by simp [only]), ?_⟩
  intro first member
  rw [noCalls] at member
  cases member

mutual

theorem lawfulNode_of_admits {type : RecordType} :
    (restriction : Restriction) → schema.Admits packages type restriction →
    ∀ node ∈ restriction.nodes, schema.LawfulNode type node
  | .missing, admitted => admitted.elim
  | .comparison _ _ _, admitted => List.forall_mem_singleton.mpr admitted
  | .isNull _, admitted => List.forall_mem_singleton.mpr admitted
  | .inValues _ _, admitted => List.forall_mem_singleton.mpr admitted
  | .inQuery _ _, ⟨⟨route, walked, single, checked⟩, flag, _⟩ =>
    List.forall_mem_singleton.mpr ⟨route, walked, single, checkSubquery_eq_ok_iff.mp checked, flag⟩
  | .junction _ children, ⟨many, admitted⟩ =>
    List.forall_mem_cons.mpr ⟨many, lawfulNode_of_admitsAll children admitted⟩
  | .not child, admitted => List.forall_mem_cons.mpr ⟨trivial, lawfulNode_of_admits child admitted⟩

theorem lawfulNode_of_admitsAll {type : RecordType} : (children : List Restriction) →
    schema.AdmitsAll packages type children →
    ∀ node ∈ Restriction.nodesAll children, schema.LawfulNode type node
  | [], _ => List.forall_mem_nil _
  | child :: children, ⟨first, rest⟩ =>
    List.forall_mem_append.mpr ⟨lawfulNode_of_admits child first, lawfulNode_of_admitsAll children rest⟩

end

mutual

/-- The subqueries of a restriction that makes sense make sense. -/
theorem accepts_of_admits {type : RecordType} :
    (restriction : Restriction) → schema.Admits packages type restriction →
    ∀ query ∈ restriction.subqueries, schema.Accepts packages query
  | .missing, _ | .comparison _ _ _, _ | .isNull _, _ | .inValues _ _, _ => List.forall_mem_nil _
  | .inQuery _ query, ⟨_, _, accepted⟩ =>
    List.forall_mem_cons.mpr ⟨accepted, accepts_of_accepts query accepted⟩
  | .junction _ children, ⟨_, admitted⟩ => accepts_of_admitsAll children admitted
  | .not child, admitted => accepts_of_admits child admitted

theorem accepts_of_admitsAll {type : RecordType} : (children : List Restriction) →
    schema.AdmitsAll packages type children →
    ∀ query ∈ Restriction.subqueriesAll children, schema.Accepts packages query
  | [], _ => List.forall_mem_nil _
  | child :: children, ⟨first, rest⟩ =>
    List.forall_mem_append.mpr ⟨accepts_of_admits child first, accepts_of_admitsAll children rest⟩

theorem accepts_of_accepts : (criteria : Criteria) → schema.Accepts packages criteria →
    ∀ query ∈ criteria.subqueries, schema.Accepts packages query
  | ⟨_, _, _, none, _, _, _, _, _, _⟩, _ => List.forall_mem_nil _
  | ⟨_, _, _, some restriction, _, _, _, _, _, _⟩, accepted => accepts_of_admits restriction accepted.2

end

theorem HasAggregate.lawful (applies : schema.HasAggregate type overCollection call) :
    schema.LawfulCall type call := by
  obtain ⟨named, route, walked, single, checked, -⟩ := applies
  exact ⟨named, route, walked, single, checkAggregate_eq_ok_iff.mp checked⟩

/-- A query that makes sense obeys all the rules. -/
theorem lawful_of_accepts (accepted : schema.Accepts packages criteria) : schema.Lawful criteria := by
  obtain ⟨frames, admitted⟩ := accepts_iff.mp accepted
  obtain ⟨overCollection, applies⟩ := frames.aggregates
  refine ⟨⟨frames.distinct, frames.properties, fun call member => (applies call member).lawful,
    Criteria.checkGrouping_eq_ok_iff.mp frames.grouped, frames.distinctKeys, frames.groupBy,
    frames.orderBy, fun restriction given => lawfulNode_of_admits restriction (admitted _ given),
    fun count given => (frames.limit count given).1, fun count given => (frames.offset count given).1,
    frames.aliases⟩, frames.selects, ?_⟩
  -- All calls agree with the one flag, so two calls agree with each other.
  rintro first member second other ⟨route, walked, isOver⟩
  obtain ⟨-, same, firstWalked, -, -, firstIs⟩ := applies first member
  obtain ⟨-, found, secondWalked, -, -, secondIs⟩ := applies second other
  cases walked.symm.trans firstWalked
  exact ⟨found, secondWalked, by rw [secondIs, ← firstIs, isOver]⟩

end Schema
end RecordQuery
