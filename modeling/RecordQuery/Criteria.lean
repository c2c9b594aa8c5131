import RecordQuery.Aggregate
import RecordQuery.Aliases
import RecordQuery.Operator
import RecordQuery.Schema
import RecordQuery.Value

namespace RecordQuery

structure AggregateCall where
  function : Aggregate
  property : Text
  deriving DecidableEq, Repr

def AggregateCall.text (call : AggregateCall) : Text :=
  call.function.name ++ "(" ++ call.property ++ ")"

/-- One key of the sort order. -/
structure SortKey where
  property : Text
  direction : Direction
  deriving DecidableEq, Repr

mutual

/-- A condition on rows. -/
inductive Restriction where
  /-- A node that is not there; no query or document has one. -/
  | missing
  | comparison (comparator : Comparator) (property : Text) (value : Value)
  | isNull (property : Text)
  | inValues (property : Text) (values : List Value)
  | inQuery (property : Text) (query : Criteria)
  | junction (connective : Connective) (children : List Restriction)
  | not (child : Restriction)

structure Criteria where
  type : RecordType
  properties : List Text
  aggregates : List AggregateCall
  restriction : Option Restriction
  groupBy : List Text
  orderBy : List SortKey
  limit : Option Int
  offset : Option Int
  aliases : Aliases
  isSubquery : Bool

end

namespace Restriction

def operator? : Restriction → Option Operator
  | missing => none
  | comparison comparator _ _ => some (.compare comparator)
  | isNull _ => some .isNull
  | inValues _ _ | inQuery _ _ => some .isIn
  | junction connective _ => some (.connect connective)
  | not _ => some .not

def property? : Restriction → Option Text
  | comparison _ property _ => some property
  | isNull property => some property
  | inValues property _ => some property
  | inQuery property _ => some property
  | missing | junction _ _ | not _ => none

mutual

/-- The nodes in depth-first order, without those below a node that is not to be entered. Subqueries
are never entered. -/
def visit (enter : Restriction → Bool) : Restriction → List Restriction
  | missing => []
  | junction connective children =>
    junction connective children ::
      if enter (junction connective children) then visitAll enter children else []
  | not child => not child :: if enter (not child) then visit enter child else []
  | comparison comparator property value => [comparison comparator property value]
  | isNull property => [isNull property]
  | inValues property values => [inValues property values]
  | inQuery property query => [inQuery property query]

def visitAll (enter : Restriction → Bool) : List Restriction → List Restriction
  | [] => []
  | child :: children => visit enter child ++ visitAll enter children

end

/-- The properties of the leaves in order, each once. -/
def properties (restriction : Restriction) : List Text :=
  ((restriction.visit fun _ => true).filterMap property?).eraseDups

end Restriction

namespace Criteria

/-- All paths of the query, those of subqueries apart. -/
def paths (criteria : Criteria) : List Text :=
  criteria.properties ++ criteria.aggregates.map (·.property) ++
    ((criteria.restriction.map (·.properties)).getD []) ++ criteria.groupBy ++
    criteria.orderBy.map (·.property)

/-- The query with the aliases that its paths need. -/
def withAliases (criteria : Criteria) : Criteria :=
  { criteria with aliases := Aliases.ofPaths criteria.paths }

def hasAggregation (criteria : Criteria) : Bool :=
  !criteria.aggregates.isEmpty || !criteria.groupBy.isEmpty

/-- The selected properties that are no grouping keys. -/
def ungrouped (criteria : Criteria) : List Text :=
  criteria.properties.filter (!criteria.groupBy.contains ·)

end Criteria
end RecordQuery
