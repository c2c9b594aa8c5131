import RecordQuery.Sql.Print
import RecordQuery.Sql.Scope

namespace RecordQuery.Sql

structure Renderer where
  schema : Schema
  literals : Literals := .standard

/-- A row count as 64 bits without sign. -/
def unsignedCount (n : Int) : Nat := (n % 0x10000000000000000).toNat

/-- The result columns. -/
def Scope.outputs (scope : Scope) (properties : List Text) (aggregates : List AggregateCall) :
    Except RenderError (List Output) := do
  let plain ← properties.mapM fun path => do
    let (value, _) ← scope.column path
    return (⟨none, value, path⟩ : Output)
  let aggregated ← aggregates.mapM fun call => do
    let (value, _) ← scope.column call.property
    return (⟨some call.function, value, call.text⟩ : Output)
  return plain ++ aggregated

/-- A comparison; a pattern is held against text. -/
def Renderer.comparison (renderer : Renderer) (scope : Scope) (comparator : Comparator)
    (property : Text) (value : Value) : Except RenderError Condition := do
  let (column, field) ← scope.column property
  if comparator.isPattern then
    let column := if field.kind.isTextual then column else .asText column
    return .compare column comparator (← renderer.literals.pattern field value)
  return .compare column comparator (← renderer.literals.literal field value)

/-- The statement of a query whose result columns and condition are given. -/
def Scope.complete (scope : Scope) (criteria : Criteria) (outputs : List Output)
    (condition : Option Condition) : Except RenderError Statement := do
  let groupBy ← criteria.groupBy.mapM fun path => do return (← scope.column path).1
  let orderBy ← criteria.orderBy.mapM fun key => do
    return ((← scope.column key.property).1, key.direction)
  let joins ← scope.joins criteria.paths
  if outputs.isEmpty then throw (.noColumns scope.type.name)
  return { outputs, table := scope.type.table, joins, condition, groupBy, orderBy
           limit := criteria.limit.map unsignedCount
           offset := criteria.offset.map unsignedCount }

mutual

def Renderer.condition (renderer : Renderer) (scope : Scope) :
    Restriction → Except RenderError Condition
  | .missing => .error .noRestriction
  | .comparison comparator property value => renderer.comparison scope comparator property value
  | .isNull property => do return .isNull (← scope.column property).1
  | .inValues property values => do
    let (column, field) ← scope.column property
    return .inValues column (← values.mapM (renderer.literals.literal field))
  | .inQuery property query => do
    let (column, _) ← scope.column property
    return .inQuery column (← renderer.statement query)
  | .not child => do return .not (← renderer.condition scope child)
  | .junction connective children => do
    return .junction connective (← renderer.conditions scope children)

def Renderer.conditions (renderer : Renderer) (scope : Scope) :
    List Restriction → Except RenderError (List Condition)
  | [] => .ok []
  | child :: children => do
    let first ← renderer.condition scope child
    return first :: (← renderer.conditions scope children)

/-- The statement of a query. -/
def Renderer.statement (renderer : Renderer) : Criteria → Except RenderError Statement
  | criteria@⟨_, properties, aggregates, none, _, _, _, _, _, _⟩ => do
    let scope := Scope.ofCriteria renderer.schema criteria
    scope.complete criteria (← scope.outputs properties aggregates) none
  | criteria@⟨_, properties, aggregates, some restriction, _, _, _, _, _, _⟩ => do
    let scope := Scope.ofCriteria renderer.schema criteria
    let outputs ← scope.outputs properties aggregates
    scope.complete criteria outputs (some (← renderer.condition scope restriction))

end

/-- The text of the statement of a query. -/
def Renderer.render (renderer : Renderer) (criteria : Criteria) : Except RenderError Text := do
  return (← renderer.statement criteria).print

end RecordQuery.Sql
