import RecordQuery.Aggregate
import RecordQuery.Number.Decimal
import RecordQuery.Operator

namespace RecordQuery.Sql

/-- A column of a table in the statement, which is known there by an alias. -/
structure Column where
  source : Text
  name : Text
  deriving DecidableEq, Repr

inductive Expression where
  | column (column : Column)
  /-- The value as text. -/
  | asText (value : Expression)
  /-- Empty text instead of null. -/
  | orEmpty (value : Expression)
  | text (value : Text)
  | concat (parts : List Expression)
  /-- Null where the key is null, that is, where there is no record. -/
  | ifPresent (key : Column) (value : Expression)
  deriving Repr

inductive Literal where
  | number (value : Decimal)
  | truth (value : Bool)
  | quoted (value : Text)
  /-- Text that is already a literal. -/
  | verbatim (value : Text)
  deriving DecidableEq, Repr

/-- One result column, perhaps aggregated. -/
structure Output where
  function : Option Aggregate
  value : Expression
  label : Text
  deriving Repr

/-- A left join of a table by one of its columns. -/
structure Join where
  table : Text
  /-- The alias of the joined table. -/
  name : Text
  key : Column
  onto : Column
  deriving DecidableEq, Repr

mutual

inductive Condition where
  | compare (left : Expression) (comparator : Comparator) (right : Literal)
  | isNull (value : Expression)
  | inValues (value : Expression) (values : List Literal)
  | inQuery (value : Expression) (query : Statement)
  | not (condition : Condition)
  | junction (connective : Connective) (conditions : List Condition)

structure Statement where
  outputs : List Output
  table : Text
  joins : List Join
  condition : Option Condition
  groupBy : List Expression
  orderBy : List (Expression × Direction)
  limit : Option Nat
  offset : Option Nat

end
end RecordQuery.Sql
