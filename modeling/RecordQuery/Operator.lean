import RecordQuery.Text.Case

namespace RecordQuery

/-- Compares a property with one value. -/
inductive Comparator where
  | eq | ne | gt | ge | lt | le | like | ilike
  deriving DecidableEq, Repr

/-- Joins restrictions. -/
inductive Connective where
  | and | or
  deriving DecidableEq, Repr

inductive Operator where
  | compare (comparator : Comparator)
  | isIn
  | isNull
  | connect (connective : Connective)
  | not
  deriving DecidableEq, Repr

namespace Comparator

def symbol : Comparator → Text
  | eq => "="
  | ne => "<>"
  | gt => ">"
  | ge => ">="
  | lt => "<"
  | le => "<="
  | like => "LIKE"
  | ilike => "ILIKE"

def name : Comparator → Text
  | eq => "eq"
  | ne => "ne"
  | gt => "gt"
  | ge => "ge"
  | lt => "lt"
  | le => "le"
  | like => "like"
  | ilike => "ilike"

/-- Whether the value is a pattern with wildcards. -/
def isPattern : Comparator → Bool
  | like | ilike => true
  | _ => false

end Comparator

namespace Connective

def symbol : Connective → Text
  | and => "AND"
  | or => "OR"

def name : Connective → Text
  | and => "and"
  | or => "or"

end Connective

namespace Operator

def symbol : Operator → Text
  | compare c => c.symbol
  | isIn => "IN"
  | isNull => "ISNULL"
  | connect c => c.symbol
  | not => "NOT"

def name : Operator → Text
  | compare c => c.name
  | isIn => "in"
  | isNull => "isnull"
  | connect c => c.name
  | not => "not"

def isComparison : Operator → Bool
  | compare _ => true
  | _ => false

def isPattern : Operator → Bool
  | compare c => c.isPattern
  | _ => false

def isConnective : Operator → Bool
  | connect _ => true
  | _ => false

/-- Whether the operator applies to restrictions rather than to a property. -/
def isBoolean : Operator → Bool
  | connect _ | not => true
  | _ => false

def all : List Operator :=
  [compare .eq, compare .ne, compare .gt, compare .ge, compare .lt, compare .le, compare .like,
    compare .ilike, isIn, isNull, connect .and, connect .or, not]

/-- The operator a query spells so, whatever the case. -/
def ofSymbol? (t : Text) : Option Operator := all.find? fun op => op.symbol == t.upper

/-- The operator a document names so, whatever the case. -/
def ofName? (t : Text) : Option Operator := all.find? fun op => op.name.sameFold t

end Operator
end RecordQuery
