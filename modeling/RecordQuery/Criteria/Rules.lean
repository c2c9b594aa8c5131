import RecordQuery.Criteria
import RecordQuery.Schema.Path

namespace RecordQuery

/-- In a query with aggregates or grouping keys every selected property is a grouping key. -/
def Criteria.checkGrouping (criteria : Criteria) : Except SchemaError Unit :=
  if criteria.hasAggregation && !criteria.ungrouped.isEmpty then
    .error ⟨.notGrouped criteria.ungrouped, criteria.ungrouped⟩
  else .ok ()

/-- Values are compared by kind; a reference holds the id it leads to. -/
def Kind.compared : Kind → Kind
  | reference => id
  | kind => kind

/-- A subquery selects one field, of the kind of the field that is looked for in it. -/
def Schema.checkSubquery (schema : Schema) (path : Text) (field : Field) (subquery : Criteria) :
    Except SchemaError Unit :=
  match subquery.properties, subquery.aggregates with
  | [selected], [] => do
    let route ← schema.walk subquery.type selected
    if route.leaf.kind = .formula then throw ⟨.subqueryFormula selected, [selected]⟩
    if route.leaf.kind.compared ≠ field.kind.compared then
      throw ⟨.subqueryKind selected path, [path, selected]⟩
  | _, _ => .error ⟨.subqueryColumns, [path]⟩

end RecordQuery
