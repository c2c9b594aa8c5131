import RecordQuery.Sql.Render

/-! Which statements come to be, in order, when a query is rendered. Those of subqueries come before
the one they are part of, and stay even if that one fails. -/
namespace RecordQuery.Sql

mutual

/-- The queries below a restriction whose statements come to be, and whether its condition does. -/
def Renderer.trailBelow (renderer : Renderer) (scope : Scope) : Restriction → List Criteria × Bool
  | .inQuery property query =>
    if (scope.column property).isOk then (renderer.trail query, (renderer.statement query).isOk)
    else ([], false)
  | .not child => renderer.trailBelow scope child
  | .junction _ children => renderer.trailBelowAll scope children
  | .missing => ([], false)
  | .comparison comparator property value =>
    ([], (renderer.comparison scope comparator property value).isOk)
  | .isNull property => ([], (scope.column property).isOk)
  | .inValues property values => ([], (renderer.condition scope (.inValues property values)).isOk)

def Renderer.trailBelowAll (renderer : Renderer) (scope : Scope) :
    List Restriction → List Criteria × Bool
  | [] => ([], true)
  | child :: children =>
    let (first, fine) := renderer.trailBelow scope child
    if fine then
      let (others, allFine) := renderer.trailBelowAll scope children
      (first ++ others, allFine)
    else (first, false)

/-- The queries whose statements come to be, a query after its subqueries. -/
def Renderer.trail (renderer : Renderer) : Criteria → List Criteria
  | criteria@⟨_, _, _, none, _, _, _, _, _, _⟩ =>
    if (renderer.statement criteria).isOk then [criteria] else []
  | criteria@⟨_, properties, aggregates, some restriction, _, _, _, _, _, _⟩ =>
    let scope := Scope.ofCriteria renderer.schema criteria
    let below :=
      if (scope.outputs properties aggregates).isOk then (renderer.trailBelow scope restriction).1
      else []
    below ++ if (renderer.statement criteria).isOk then [criteria] else []

end

/-- How many tables a statement joins. -/
def Renderer.joinCount (renderer : Renderer) (criteria : Criteria) : Nat :=
  ((Scope.ofCriteria renderer.schema criteria).joined criteria.paths).length

end RecordQuery.Sql
