import RecordQuery.Text

namespace RecordQuery

/-- The clauses that may follow the type name of a query. -/
inductive Clause where
  | where_ | groupBy | orderBy | limit | offset
  deriving DecidableEq, Repr

namespace Clause

def name : Clause → Text
  | where_ => "WHERE"
  | groupBy => "GROUP BY"
  | orderBy => "ORDER BY"
  | limit => "LIMIT"
  | offset => "OFFSET"

/-- The place of the clause in a query. -/
def rank : Clause → Nat
  | where_ => 0
  | groupBy => 1
  | orderBy => 2
  | limit => 3
  | offset => 4

end Clause
end RecordQuery
