import RecordQuery.Criteria
import RecordQuery.Schema.Path
import RecordQuery.Sql.Literals

/-! The tables of a statement. Each path of a query is a column of the queried table or of a table
joined to it; a table is joined once for every prefix of paths that leads to it, and only if a
column is read from it or from one behind it. -/
namespace RecordQuery

/-- The part of a path before its last dot, empty if there is none. -/
def parentPath (path : Text) : Text := (path.beforeLast? (Text.ascii '.')).getD []

/-- The reference whose column already holds the id that a route ends in. -/
def Route.foreignKey? (route : Route) : Option Field :=
  match route.above.getLast? with
  | none => none
  | some step =>
    if route.leaf.name = idName ∧ step.field.kind = .reference then some step.field else none

namespace Sql

structure Scope where
  schema : Schema
  type : RecordType
  aliases : Aliases

namespace Scope

/-- The aliases of a query, or fresh ones if it lacks some. -/
def aliasesOf (criteria : Criteria) : Aliases :=
  let fresh := Aliases.ofPaths criteria.paths
  if fresh.all fun (path, _) => (criteria.aliases.name? path).isSome then criteria.aliases else fresh

def ofCriteria (schema : Schema) (criteria : Criteria) : Scope :=
  ⟨schema, criteria.type, aliasesOf criteria⟩

/-- The alias of a prefix; the empty one is the queried table. -/
def source (scope : Scope) (path : Text) : Text :=
  if path.isEmpty then Aliases.base else (scope.aliases.name? path).getD []

def walk (scope : Scope) (path : Text) : Except RenderError Route :=
  (scope.schema.walk scope.type path).mapError .schema

/-- The prefix that leads to the table from which a path is read. -/
def readFrom (route : Route) (path : Text) : Text :=
  match route.foreignKey? with
  | some _ => parentPath (parentPath path)
  | none => parentPath path

mutual

/-- A formula over the columns of its own record. -/
def formula (source : Text) (owner : RecordType) : Formula → Except RenderError Expression
  | .missing => .error .noFormula
  | .text value => .ok (.text value)
  | .field name =>
    match owner.field? name with
    | none => .error (.schema ⟨.unknownField name owner.name, [name]⟩)
    | some field =>
      let column := Expression.column ⟨source, field.column⟩
      .ok (.orEmpty (if field.kind.isTextual then column else .asText column))
  | .concat parts => do return .concat (← formulas source owner parts)

def formulas (source : Text) (owner : RecordType) :
    List Formula → Except RenderError (List Expression)
  | [] => .ok []
  | part :: parts => do
    let first ← formula source owner part
    return first :: (← formulas source owner parts)

end

/-- The expression of a path, and the field it ends in. -/
def column (scope : Scope) (path : Text) : Except RenderError (Expression × Field) := do
  let route ← scope.walk path
  let source := scope.source (readFrom route path)
  match route.foreignKey? with
  | some reference => return (.column ⟨source, reference.column⟩, route.leaf)
  | none =>
    let owner := route.last.owner
    if route.leaf.kind.isCollection then
      throw (.schema ⟨.wholeRelationship path, [path]⟩)
    if route.leaf.kind = .formula then
      let value ← formula source owner route.leaf.formula
      return (.ifPresent ⟨source, owner.idColumn⟩ value, route.leaf)
    return (.column ⟨source, route.leaf.column⟩, route.leaf)

/-- A prefix and the shorter ones, without the empty one. -/
def chain (path : Text) : List Text :=
  (Aliases.strictPrefixes path ++ [path]).filter (!·.isEmpty)

/-- The prefixes to join for a path. -/
def needs (scope : Scope) (path : Text) : List Text :=
  match scope.walk path with
  | .ok route => chain (readFrom route path)
  | .error _ => []

/-- The prefixes to join for the given paths, parents first. -/
def joined (scope : Scope) (paths : List Text) : List Text :=
  Aliases.joinOrder (paths.flatMap scope.needs).eraseDups

def typeNamed (scope : Scope) (name : Text) : Except RenderError RecordType :=
  match scope.schema.typeNamed? name with
  | some type => .ok type
  | none => .error (.schema ⟨.unknownType name, []⟩)

/-- A field that a relationship at the given prefix names. -/
def fieldNamed (type : RecordType) (name path : Text) : Except RenderError Field :=
  match type.field? name with
  | some field => .ok field
  | none => .error (.schema ⟨.unknownField name type.name, [path]⟩)

/-- The alias of the table that a prefix is joined onto. -/
def parentSource (scope : Scope) (path : Text) : Text :=
  match path.beforeLast? (Text.ascii '.') with
  | none => Aliases.base
  | some above => (scope.aliases.name? above).getD []

/-- The joins for one prefix: an association is joined through its linking table. -/
def joinsAt (scope : Scope) (path : Text) : Except RenderError (List Join) := do
  let route ← scope.walk path
  let owner := route.last.owner
  let field := route.leaf
  let parent := scope.parentSource path
  let name := (scope.aliases.name? path).getD []
  let target ← scope.typeNamed field.target
  match field.kind with
  | .reference =>
    return [⟨target.table, name, ⟨name, target.idColumn⟩, ⟨parent, field.column⟩⟩]
  | .inverse =>
    let back ← fieldNamed target field.inverse path
    return [⟨target.table, name, ⟨name, back.column⟩, ⟨parent, owner.idColumn⟩⟩]
  | .association =>
    let linking ← scope.typeNamed field.linking
    let self ← fieldNamed linking field.linkSelf path
    let foreign ← fieldNamed linking field.linkForeign path
    let link := name ++ Aliases.linkSuffix
    return [⟨linking.table, link, ⟨link, self.column⟩, ⟨parent, owner.idColumn⟩⟩,
      ⟨target.table, name, ⟨name, target.idColumn⟩, ⟨link, foreign.column⟩⟩]
  | _ => throw (.schema ⟨.notRelationship field.name owner.name, [path]⟩)

/-- The joins for the given paths. -/
def joins (scope : Scope) (paths : List Text) : Except RenderError (List Join) := do
  return (← (scope.joined paths).mapM scope.joinsAt).flatten

end Scope
end Sql
end RecordQuery
