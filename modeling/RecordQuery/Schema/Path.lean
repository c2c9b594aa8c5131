import RecordQuery.Schema
import RecordQuery.Error

namespace RecordQuery

structure Step where
  owner : RecordType
  field : Field
  deriving Repr

/-- The fields along a path. -/
structure Route where
  above : List Step
  last : Step
  deriving Repr

namespace Route

def steps (route : Route) : List Step := route.above ++ [route.last]

def leaf (route : Route) : Field := route.last.field

/-- Whether the path passes through or ends in a collection. -/
def isCollection (route : Route) : Bool := route.steps.any (·.field.kind.isCollection)

def ids (route : Route) : List Text := route.steps.map (·.field.id)

def names (route : Route) : List Text := route.steps.map (·.field.name)

def extend (step : Step) (route : Route) : Route := ⟨step :: route.above, route.last⟩

end Route

namespace Schema

/-- The type that a field of `owner` leads to. -/
def follow (schema : Schema) (owner : RecordType) (field : Field) (path : Text) :
    Except SchemaError RecordType :=
  if field.kind.isRelationship then
    match schema.typeNamed? field.target with
    | some target => .ok target
    | none => .error ⟨.unknownType field.target, [path]⟩
  else .error ⟨.notRelationship field.name owner.name, [path]⟩

/-- Follows field names; errors name the whole path. -/
def walkNames (schema : Schema) (path : Text) (owner : RecordType) (name : Text) :
    List Text → Except SchemaError Route
  | [] =>
    match owner.field? name with
    | none => .error ⟨.unknownField name owner.name, [path]⟩
    | some field => .ok ⟨[], ⟨owner, field⟩⟩
  | next :: rest =>
    match owner.field? name with
    | none => .error ⟨.unknownField name owner.name, [path]⟩
    | some field => do
      let target ← schema.follow owner field path
      let route ← schema.walkNames path target next rest
      return route.extend ⟨owner, field⟩

/-- Follows a dotted path. -/
def walk (schema : Schema) (base : RecordType) (path : Text) : Except SchemaError Route :=
  let (name, names) := path.splitFirst (Text.ascii '.')
  schema.walkNames path base name names

/-- Follows field ids; errors name the path so far, whose names are in `above`. -/
def walkIdsFrom (schema : Schema) (above : List Text) (owner : RecordType) (id : Text) :
    List Text → Except SchemaError Route
  | [] =>
    match owner.fieldById? id with
    | none => .error ⟨.unknownFieldId id owner.name, []⟩
    | some field => .ok ⟨[], ⟨owner, field⟩⟩
  | next :: rest =>
    match owner.fieldById? id with
    | none => .error ⟨.unknownFieldId id owner.name, []⟩
    | some field => do
      let names := above ++ [field.name]
      let target ← schema.follow owner field (Text.join "." names)
      let route ← schema.walkIdsFrom names target next rest
      return route.extend ⟨owner, field⟩

/-- Follows an id path, and gives the dotted path too. -/
def walkIds (schema : Schema) (base : RecordType) : List Text → Except SchemaError (Text × Route)
  | [] => .error ⟨.missingReference, []⟩
  | id :: ids => do
    let route ← schema.walkIdsFrom [] base id ids
    return (Text.join "." route.names, route)

end Schema

/-- Only the count applies to fields other than numbers. -/
def checkAggregate (function : Aggregate) (path : Text) (field : Field) : Except SchemaError Unit :=
  if function.needsNumber && !field.kind.isNumeric then
    .error ⟨.aggregateKind function field.kind path, [path]⟩
  else .ok ()

end RecordQuery
