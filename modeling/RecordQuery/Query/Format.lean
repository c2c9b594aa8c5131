import RecordQuery.Criteria

namespace RecordQuery

/-- Text in quotes, other values bare. -/
def Value.literal : Value → Text
  | .text t =>
    "'" ++ (Text.replace (Text.replace t (Text.ascii '\\') "\\\\") (Text.ascii '\'') "\\'") ++ "'"
  | value => value.written

def SortKey.text (key : SortKey) : Text := key.property ++ " " ++ key.direction.name

/-- The parts that stand before the restriction of a query. -/
def headText (type : RecordType) (properties : List Text) (aggregates : List AggregateCall) : Text :=
  "SELECT " ++ Text.join ", " (properties ++ aggregates.map (·.text)) ++ " FROM " ++ type.name

/-- The parts that stand after it. -/
def tailText (groupBy : List Text) (orderBy : List SortKey) (limit offset : Option Int) : Text :=
  (if groupBy.isEmpty then [] else Text.ofString " GROUP BY " ++ Text.join ", " groupBy) ++
    (if orderBy.isEmpty then []
      else Text.ofString " ORDER BY " ++ Text.join ", " (orderBy.map (·.text))) ++
    (limit.map fun n => Text.ofString " LIMIT " ++ Text.ofInt n).getD [] ++
    (offset.map fun n => Text.ofString " OFFSET " ++ Text.ofInt n).getD []

mutual

/-- A restriction; inside another one, a junction is put in brackets. -/
def Restriction.write (nested : Bool) : Restriction → Text
  | .missing => []
  | .comparison comparator property value =>
    property ++ " " ++ comparator.symbol ++ " " ++ value.literal
  | .isNull property => property ++ " ISNULL"
  | .inValues property values =>
    property ++ " IN (" ++ Text.join ", " (values.map (·.literal)) ++ ")"
  | .inQuery property query => property ++ " IN (" ++ query.text ++ ")"
  | .not child => "NOT " ++ child.write true
  | .junction connective children =>
    let chain := Text.join (" " ++ connective.symbol ++ " ") (Restriction.writeAll children)
    if nested then "(" ++ chain ++ ")" else chain

def Restriction.writeAll : List Restriction → List Text
  | [] => []
  | child :: children => child.write true :: Restriction.writeAll children

/-- The text of a query. -/
def Criteria.text : Criteria → Text
  | ⟨type, properties, aggregates, none, groupBy, orderBy, limit, offset, _, _⟩ =>
    headText type properties aggregates ++ tailText groupBy orderBy limit offset
  | ⟨type, properties, aggregates, some restriction, groupBy, orderBy, limit, offset, _, _⟩ =>
    headText type properties aggregates ++ " WHERE " ++ restriction.write false ++
      tailText groupBy orderBy limit offset

end
end RecordQuery
