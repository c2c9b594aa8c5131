import RecordQuery.Criteria
import RecordQuery.Query.Format
import RecordQuery.Schema
import RecordQuery.Table

namespace RecordQuery.Command

/-- A query and its statement. -/
structure Compiled where
  criteria : Criteria
  sql : Text

/-- Queries and statements side by side. -/
def queryTable (results : List Compiled) : Text :=
  let rows := results.zipIdx.map fun (result, i) =>
    (⟨[Text.ofNat (i + 1), result.criteria.text, result.sql], false⟩ : TableRow)
  let table : Table := ⟨["#", "DAL", "SQL"], [true, false, false], rows⟩
  table.text ++ "(" ++ Text.ofNat results.length ++ " queries)\n"

/-- Where a relationship leads, and through what. -/
def targetText (field : Field) : Text :=
  match field.kind with
  | .inverse => field.target ++ " via " ++ field.inverse
  | .association => field.target ++ " via " ++ field.linking
  | _ => field.target

private def fieldRow (type : RecordType) (field : Field) : List Text :=
  [type.name, field.name, field.label, field.kind.name, field.column, targetText field, field.id]

/-- The rows of a type; a line follows the last one. -/
private def typeRows (type : RecordType) : List TableRow :=
  let count := type.fields.length
  type.fields.zipIdx.map fun (field, i) => ⟨fieldRow type field, i + 1 == count⟩

def schemaTable (types : List RecordType) : Text :=
  let table : Table :=
    ⟨["TYPE", "FIELD", "LABEL", "KIND", "COLUMN", "TARGET", "ID"],
      [false, false, false, true, false, false, false], types.flatMap typeRows⟩
  table.text ++ "(" ++ Text.ofNat types.length ++ " types)\n"

end RecordQuery.Command
