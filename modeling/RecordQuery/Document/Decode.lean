import RecordQuery.Criteria.Rules
import RecordQuery.Document

namespace RecordQuery

/-- Functions apply to what they are called on, and selected properties are grouped. -/
def Schema.validate (schema : Schema) (criteria : Criteria) : Except SchemaError Unit := do
  for call in criteria.aggregates do
    let route ← schema.walk criteria.type call.property
    checkAggregate call.function call.property route.leaf
  criteria.checkGrouping

/-- What a document is decoded against. -/
structure Decoder where
  schema : Schema
  packages : Packages
  /-- How deep restrictions and subqueries may be nested. -/
  maxDepth : Nat := 32

namespace Decoder

/-- The queried type. Its name, if given beside its id, may be the short one. -/
def baseType (decoder : Decoder) (id name : Text) : Except QueryError RecordType :=
  if !id.isEmpty then
    match decoder.schema.typeById? id with
    | none => .error (.schema ⟨.unknownTypeId id, []⟩)
    | some type =>
      if name.isEmpty || name = type.name || name = type.shortName then .ok type
      else .error (.schema ⟨.baseTypeMismatch name id type.name, []⟩)
  else if name.isEmpty then .error (.atNode [] .missingBaseType)
  else
    match decoder.schema.resolve? decoder.packages name with
    | none => .error (.schema ⟨.unknownType name, []⟩)
    | some type => .ok type

/-- The path of a reference. An id decides; a name beside it must say the same. -/
def resolve (decoder : Decoder) (type : RecordType) (ref : PropertyRef) :
    Except QueryError (Text × Route) :=
  if !ref.id.isEmpty then do
    let (path, route) ← (decoder.schema.walkIds type ref.id).mapError .schema
    if !ref.name.isEmpty && ref.name ≠ path then
      throw (.schema ⟨.idMismatch ref.name ref.id.text path, [ref.name]⟩)
    return (path, route)
  else if ref.name.isEmpty then .error (.atNode [] .missingReference)
  else do return (ref.name, ← (decoder.schema.walk type ref.name).mapError .schema)

/-- The path and the field of a key; a collection is none. -/
def key (decoder : Decoder) (type : RecordType) (ref : PropertyRef) :
    Except QueryError (Text × Field) := do
  let (path, route) ← decoder.resolve type ref
  if route.leaf.kind.isCollection then throw (.schema ⟨.wholeRelationship path, [path]⟩)
  return (path, route.leaf)

/-- A selected path, and the function over it if there is one. -/
def selected (decoder : Decoder) (type : RecordType) (property : SelectedProperty) :
    Except QueryError (Text × Option Aggregate) := do
  let (path, route) ← decoder.resolve type property.ref
  if !route.leaf.kind.isPrimitive then throw (.schema ⟨.wholeRelationship path, [path]⟩)
  if property.function.isEmpty then return (path, none)
  match Aggregate.ofName? property.function with
  | some function => return (path, some function)
  | none => throw (.atNode property.function (.unknownAggregate property.function))

def sortKey (decoder : Decoder) (type : RecordType) (ordering : DocumentOrdering) :
    Except QueryError SortKey := do
  let (path, _) ← decoder.key type ordering.ref
  if ordering.direction.isEmpty then return ⟨path, .asc⟩
  match Direction.ofName? ordering.direction with
  | some direction => return ⟨path, direction⟩
  | none => throw (.atNode ordering.direction (.unknownDirection ordering.direction))

/-- The values of a node whose arguments are all values. -/
def values (operator : Text) : List Argument → Except QueryError (List Value)
  | [] => .ok []
  | .value value :: args => do return value :: (← values operator args)
  | .restriction _ :: _ | .subquery _ :: _ =>
    .error (.atNode operator (.unexpectedObject operator))

def checkCount (count : RowCount) (value : Option Int) : Except QueryError Unit :=
  if value.any (· < 0) then .error (.atNode count.key (.negativeCount count)) else .ok ()

/-- One restriction for several that all hold. -/
def conjunction : List Restriction → Option Restriction
  | [] => none
  | [restriction] => some restriction
  | restrictions => some (.junction .and restrictions)

/-- What a boolean operator makes of its children. -/
def combine (written : Text) (operator : Option Connective) (children : List Restriction) :
    Except QueryError Restriction :=
  match operator, children with
  | none, [child] => .ok (.not child)
  | none, _ => .error (.atNode written (.argumentCount written .oneNested))
  | some connective, first :: second :: more => .ok (.junction connective (first :: second :: more))
  | some _, _ => .error (.atNode written (.argumentCount written .twoNested))

mutual

/-- The restriction of a node that may be nested so deep. -/
def node (decoder : Decoder) (type : RecordType) (depth : Nat) :
    DocumentNode → Except QueryError Restriction
  | ⟨written, ref, args⟩ =>
    if depth = 0 then .error (.atNode written (.tooDeep decoder.maxDepth))
    else
      match Operator.ofName? written, args with
      | none, _ => .error (.atNode written (.unknownOperator written))
      | some (.connect connective), args => do
        combine written (some connective) (← decoder.children type (depth - 1) written args)
      | some .not, args => do
        combine written none (← decoder.children type (depth - 1) written args)
      | some .isNull, args => do
        let (path, _) ← decoder.key type ref
        if !args.isEmpty then throw (.atNode written (.argumentCount written .none))
        return .isNull path
      | some .isIn, [.subquery document] => do
        let (path, field) ← decoder.key type ref
        let subquery ← decoder.document (depth - 2) true document
        (decoder.schema.checkSubquery path field subquery).mapError .schema
        return .inQuery path subquery
      | some .isIn, args => do
        let (path, _) ← decoder.key type ref
        let values ← values written args
        if values.isEmpty then throw (.atNode written (.argumentCount written .queryOrValues))
        return .inValues path values
      | some (.compare comparator), args => do
        let (path, _) ← decoder.key type ref
        match ← values written args with
        | [value] => return .comparison comparator path value
        | _ => throw (.atNode written (.argumentCount written .oneValue))

def children (decoder : Decoder) (type : RecordType) (depth : Nat) (written : Text) :
    List Argument → Except QueryError (List Restriction)
  | [] => .ok []
  | .restriction child :: args => do
    let first ← decoder.node type depth child
    return first :: (← decoder.children type depth written args)
  | .value _ :: _ | .subquery _ :: _ =>
    .error (.atNode written (.argumentCount written .nestedOnly))

def nodes (decoder : Decoder) (type : RecordType) (depth : Nat) :
    List DocumentNode → Except QueryError (List Restriction)
  | [] => .ok []
  | first :: rest => do
    let restriction ← decoder.node type depth first
    return restriction :: (← decoder.nodes type depth rest)

/-- The query of a document whose restrictions may be nested so deep. -/
def document (decoder : Decoder) (depth : Nat) (isSubquery : Bool) :
    Document → Except QueryError Criteria
  | ⟨typeId, typeName, properties, groupings, restrictions, orderings, limit, offset⟩ => do
    let type ← decoder.baseType typeId typeName
    let selected ← properties.mapM (decoder.selected type)
    let groupBy ← groupings.mapM fun ref => do return (← decoder.key type ref).1
    let roots ← decoder.nodes type depth restrictions
    let orderBy ← orderings.mapM (decoder.sortKey type)
    checkCount .limit limit
    checkCount .offset offset
    let criteria : Criteria :=
      { type
        properties := (selected.filterMap fun (path, function) =>
          if function.isNone then some path else none).eraseDups
        aggregates := selected.filterMap fun (path, function) => function.map (⟨·, path⟩)
        restriction := conjunction roots, groupBy := groupBy.eraseDups, orderBy, limit, offset
        aliases := [], isSubquery }
    (decoder.schema.validate criteria).mapError .schema
    return criteria.withAliases

end

/-- Decodes a document. -/
def decode (decoder : Decoder) (document : Document) : Except QueryError Criteria :=
  decoder.document decoder.maxDepth false document

end Decoder
end RecordQuery
