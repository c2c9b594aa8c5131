import RecordQuery.Criteria.Rules
import RecordQuery.Query.Keys
import RecordQuery.Query.Select

namespace RecordQuery.Query

/-- An entry of a select list with its path. -/
inductive Selected where
  | property (path : Text)
  | aggregate (call : AggregateCall) (overCollection : Bool)
  deriving DecidableEq, Repr

namespace Selected

def property? : Selected → Option Text
  | property path => some path
  | aggregate _ _ => none

def aggregate? : Selected → Option AggregateCall
  | property _ => none
  | aggregate call _ => some call

end Selected

/-- The path that an entry selects. -/
def SelectItem.path (type : RecordType) : SelectItem → Except QueryError Text
  | property token | aggregate _ token => .ok token.text
  | wildcard _ =>
    if type.defaultField.isEmpty then .error (.schema ⟨.noDefaultField type.name, []⟩)
    else .ok type.defaultField

/-- Binds one entry: its path ends in a single value, and a function applies to that. -/
def bindItem (schema : Schema) (type : RecordType) (item : SelectItem) :
    Except QueryError Selected := do
  let path ← item.path type
  let route ← (schema.walk type path).mapError .schema
  if !route.leaf.kind.isPrimitive then throw (.atToken item.token (.wholeRelationship path))
  match item with
  | .property _ | .wildcard _ => return .property path
  | .aggregate function _ =>
    (checkAggregate function path route.leaf).mapError .schema
    return .aggregate ⟨function, path⟩ route.isCollection

/-- Aggregates over collections and aggregates over single values do not mix; `seen` is what those
before are over. -/
def checkMixing (seen : Option Bool) (item : SelectItem) :
    Selected → Except QueryError (Option Bool)
  | .property _ => .ok seen
  | .aggregate _ overCollection =>
    if seen.any (· ≠ overCollection) then .error (.atToken item.token .mixedAggregates)
    else .ok (some overCollection)

def bindSelect (schema : Schema) (type : RecordType) (seen : Option Bool) :
    List SelectItem → Except QueryError (List Selected)
  | [] => .ok []
  | item :: items => do
    let selected ← bindItem schema type item
    let seen ← checkMixing seen item selected
    return selected :: (← bindSelect schema type seen items)

/-- Binds a path that does not end in a collection. -/
def bindPath (schema : Schema) (type : RecordType) (token : Token) : Except QueryError Field := do
  let route ← (schema.walk type token.text).mapError .schema
  if route.leaf.kind.isCollection then throw (.atToken token (.wholeRelationship token.text))
  return route.leaf

/-- Checks the property of a leaf, and holds a subquery against it. -/
def checkLeaf (schema : Schema) (type : RecordType) (node : Restriction) : Except QueryError Unit :=
  match node.property? with
  | none => .ok ()
  | some path => do
    let field ← bindPath schema type ⟨.word, path, none⟩
    match node with
    | .inQuery _ subquery => (schema.checkSubquery path field subquery).mapError .schema
    | _ => pure ()

def checkRestriction (schema : Schema) (type : RecordType) (restriction : Restriction) :
    Except QueryError Unit :=
  (restriction.visit fun _ => true).forM (checkLeaf schema type)

/-- The keys of a list, if each passes and the list does not fail after them. -/
def Keys.check {α : Type} (keys : Keys α) (check : α → Except QueryError Unit) :
    Except QueryError (List α) := do
  keys.keys.forM check
  match keys.failure with
  | some failure => throw failure
  | none => return keys.keys

/-- The grouping keys, each once. -/
def bindGroupKeys (schema : Schema) (type : RecordType) (keys : Keys Token) :
    Except QueryError (List Text) := do
  let tokens ← keys.check fun token => do
    let _ ← bindPath schema type token
  return (tokens.map (·.text)).eraseDups

def bindSortKeys (schema : Schema) (type : RecordType) (keys : Keys (Token × Direction)) :
    Except QueryError (List SortKey) := do
  let keys ← keys.check fun (token, _) => do
    let _ ← bindPath schema type token
  return keys.map fun (token, direction) => ⟨token.text, direction⟩

end RecordQuery.Query
