import RecordQuery.Text.Case

namespace RecordQuery

/-- A function over the values of a property in a group of rows. No query spells the unnamed one. -/
inductive Aggregate where
  | count | sum | avg | min | max | unnamed
  deriving DecidableEq, Repr

namespace Aggregate

def name : Aggregate → Text
  | count => "COUNT"
  | sum => "SUM"
  | avg => "AVG"
  | min => "MIN"
  | max => "MAX"
  | unnamed => ""

/-- Every function but the count needs numbers. -/
def needsNumber : Aggregate → Bool
  | count => false
  | _ => true

def all : List Aggregate := [count, sum, avg, min, max]

def ofName? (t : Text) : Option Aggregate := all.find? fun f => f.name == t.upper

end Aggregate

/-- The order of a sort key. -/
inductive Direction where
  | asc | desc
  deriving DecidableEq, Repr

namespace Direction

def name : Direction → Text
  | asc => "ASC"
  | desc => "DESC"

def ofName? (t : Text) : Option Direction := [asc, desc].find? fun d => d.name == t.upper

end Direction
end RecordQuery
