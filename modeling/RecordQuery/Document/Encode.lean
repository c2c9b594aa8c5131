import RecordQuery.Criteria
import RecordQuery.Document
import RecordQuery.Schema.Path

namespace RecordQuery

inductive EncodeError where
  | schema (error : SchemaError)
  | noRestriction
  deriving DecidableEq, Repr

def EncodeError.message : EncodeError → Text
  | schema error => error.message
  | noRestriction => "unsupported restriction <nil>"

namespace Schema

/-- The reference to a path, and the route along it. -/
def refer (schema : Schema) (type : RecordType) (path : Text) :
    Except EncodeError (PropertyRef × Route) := do
  let route ← (schema.walk type path).mapError .schema
  return (⟨route.ids, path⟩, route)

def select (schema : Schema) (type : RecordType) (path function : Text) :
    Except EncodeError SelectedProperty := do
  let (ref, route) ← schema.refer type path
  return ⟨ref, route.leaf.label, function⟩

/-- The selected properties, those with a function last. -/
def encodeSelect (schema : Schema) (type : RecordType) (properties : List Text)
    (aggregates : List AggregateCall) : Except EncodeError (List SelectedProperty) := do
  let plain ← properties.mapM fun path => schema.select type path []
  let aggregated ← aggregates.mapM fun call => schema.select type call.property call.function.name
  return plain ++ aggregated

def encodeGroupings (schema : Schema) (type : RecordType) (groupBy : List Text) :
    Except EncodeError (List PropertyRef) :=
  groupBy.mapM fun path => do return (← schema.refer type path).1

def encodeOrderings (schema : Schema) (type : RecordType) (orderBy : List SortKey) :
    Except EncodeError (List DocumentOrdering) :=
  orderBy.mapM fun key => do
    return ⟨(← schema.refer type key.property).1, key.direction.name⟩

/-- A node with a property. -/
def encodeLeaf (schema : Schema) (type : RecordType) (operator : Operator) (path : Text)
    (args : List Argument) : Except EncodeError DocumentNode := do
  return ⟨operator.name, (← schema.refer type path).1, args⟩

mutual

def encodeNode (schema : Schema) (type : RecordType) :
    Restriction → Except EncodeError DocumentNode
  | .missing => .error .noRestriction
  | .comparison comparator path value =>
    schema.encodeLeaf type (.compare comparator) path [.value value]
  | .isNull path => schema.encodeLeaf type .isNull path []
  | .inValues path values => schema.encodeLeaf type .isIn path (values.map .value)
  | .inQuery path query => do
    let (ref, _) ← schema.refer type path
    return ⟨Operator.isIn.name, ref, [.subquery (← schema.encode query)]⟩
  | .not child => do
    return ⟨Operator.not.name, {}, [.restriction (← schema.encodeNode type child)]⟩
  | .junction connective children => do
    return ⟨connective.name, {}, ← schema.encodeNodes type children⟩

def encodeNodes (schema : Schema) (type : RecordType) :
    List Restriction → Except EncodeError (List Argument)
  | [] => .ok []
  | child :: children => do
    let first ← schema.encodeNode type child
    return .restriction first :: (← schema.encodeNodes type children)

/-- The document of a query. -/
def encode (schema : Schema) : Criteria → Except EncodeError Document
  | ⟨type, properties, aggregates, none, groupBy, orderBy, limit, offset, _, _⟩ => do
    let selected ← schema.encodeSelect type properties aggregates
    let groupings ← schema.encodeGroupings type groupBy
    let orderings ← schema.encodeOrderings type orderBy
    return ⟨type.id, type.name, selected, groupings, [], orderings, limit, offset⟩
  | ⟨type, properties, aggregates, some restriction, groupBy, orderBy, limit, offset, _, _⟩ => do
    let selected ← schema.encodeSelect type properties aggregates
    let groupings ← schema.encodeGroupings type groupBy
    let node ← schema.encodeNode type restriction
    let orderings ← schema.encodeOrderings type orderBy
    return ⟨type.id, type.name, selected, groupings, [node], orderings, limit, offset⟩

end
end Schema
end RecordQuery
