import RecordQuery.Proofs.Schema.Identity
import RecordQuery.Sql.Scope

namespace RecordQuery

namespace Sql

variable {α : Type}

/-- A row holds a value in some columns, and null in the others. -/
abbrev Row (α : Type) := Text → Option α

/-- The rows of every table. -/
abbrev Database (α : Type) := Text → List (Row α)

/-- The rows at hand, by the names of their tables in a statement. -/
abbrev Joined (α : Type) := Text → Row α

/-- What stands for the row of a table that has none to join. -/
def Row.null : Row α := fun _ => none

namespace Joined

/-- A row of the queried table, before anything is joined to it. -/
def ofRow (row : Row α) : Joined α := fun name => if name = Aliases.base then row else Row.null

def extend (joined : Joined α) (name : Text) (row : Row α) : Joined α :=
  fun other => if other = name then row else joined other

def read (joined : Joined α) (column : Column) : Option α := joined column.source column.name

theorem extend_self (joined : Joined α) (name : Text) (row : Row α) : joined.extend name row name = row :=
  if_pos rfl

theorem extend_of_ne (joined : Joined α) (row : Row α) (different : other ≠ name) :
    joined.extend name row other = joined other :=
  if_neg different

end Joined

section Join

variable [DecidableEq α]

/-- Both columns hold the same value; null is the same as nothing. -/
def Join.holds (join : Join) (joined : Joined α) : Bool :=
  (joined.read join.key).isSome && joined.read join.key == joined.read join.onto

/-- A left join: every row of the table for which the condition holds, or else none of them. -/
def Join.run (database : Database α) (join : Join) (joined : Joined α) : List (Joined α) :=
  match (database join.table).filter fun row => join.holds (joined.extend join.name row) with
  | [] => [joined.extend join.name Row.null]
  | row :: rows => (row :: rows).map (joined.extend join.name)

/-- Left joins in order. -/
def Join.runAll (database : Database α) : List Join → Joined α → List (Joined α)
  | [], joined => [joined]
  | join :: joins, joined => (join.run database joined).flatMap (Join.runAll database joins)

end Join

/-- What a database promises of a type: its records have ids, all different, and its references lead to
records that exist. -/
structure Database.Keeps (database : Database α) (schema : Schema) (type : RecordType) : Prop where
  filled : ∀ row ∈ database type.table, row type.idColumn ≠ none
  unique : ((database type.table).map (· type.idColumn)).Nodup
  references : ∀ field ∈ type.fields, field.kind = .reference → ∀ row ∈ database type.table,
    ∀ id ∈ row field.column, ∀ target ∈ schema.typeNamed? field.target,
      ∃ found ∈ database target.table, found target.idColumn = some id

variable [DecidableEq α]

/-- The record that a reference of a row leads to. -/
def Database.next? (database : Database α) (schema : Schema) (row : Row α) (reference : Field) :
    Option (Row α) := do
  let id ← row reference.column
  let target ← schema.typeNamed? reference.target
  (database target.table).find? (· target.idColumn == some id)

/-- The value at the end of a route, field by field; null from the first null reference on. -/
def Database.navigate (database : Database α) (schema : Schema) (row : Row α) :
    List Step → Step → Option α
  | [], last => row last.field.column
  | step :: above, last => do
    let next ← database.next? schema row step.field
    database.navigate schema next above last

end Sql
end RecordQuery
