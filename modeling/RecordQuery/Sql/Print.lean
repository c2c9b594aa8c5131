import RecordQuery.Aliases
import RecordQuery.Sql

namespace RecordQuery.Sql

/-- A quoted name; a quote in it is doubled. -/
def identifier (name : Text) : Text := "\"" ++ name.replace (Text.ascii '"') "\"\"" ++ "\""

/-- A quoted string; a quote in it is doubled. -/
def quoted (value : Text) : Text := "'" ++ value.replace (Text.ascii '\'') "''" ++ "'"

def Column.text (column : Column) : Text := identifier column.source ++ "." ++ identifier column.name

mutual

def Expression.print : Expression → Text
  | .column reference => reference.text
  | .asText value => "CAST(" ++ value.print ++ " AS TEXT)"
  | .orEmpty value => "COALESCE(" ++ value.print ++ ", '')"
  | .text value => quoted value
  | .concat parts => Text.join " || " (Expression.printAll parts)
  | .ifPresent key value =>
    "CASE WHEN " ++ key.text ++ " IS NULL THEN NULL ELSE (" ++ value.print ++ ") END"

def Expression.printAll : List Expression → List Text
  | [] => []
  | part :: parts => part.print :: Expression.printAll parts

end

def Literal.print : Literal → Text
  | number value => value.text
  | truth true => "TRUE"
  | truth false => "FALSE"
  | quoted value => Sql.quoted value
  | verbatim value => value

def Output.print (output : Output) : Text :=
  let value := match output.function with
    | none => output.value.print
    | some function => function.name ++ "(" ++ output.value.print ++ ")"
  value ++ " AS " ++ identifier output.label

def Join.print (join : Join) : Text :=
  " LEFT JOIN " ++ identifier join.table ++ " AS " ++ identifier join.name ++ " ON " ++
    join.key.text ++ " = " ++ join.onto.text

/-- The parts of a statement before its condition. -/
def printHead (outputs : List Output) (table : Text) (joins : List Join) : Text :=
  "SELECT " ++ Text.join ", " (outputs.map (·.print)) ++ " FROM " ++ identifier table ++ " AS " ++
    identifier Aliases.base ++ (joins.map (·.print)).flatten

/-- The parts of a statement after its condition. -/
def printTail (groupBy : List Expression) (orderBy : List (Expression × Direction))
    (limit offset : Option Nat) : Text :=
  (if groupBy.isEmpty then []
    else Text.ofString " GROUP BY " ++ Text.join ", " (groupBy.map (·.print))) ++
  (if orderBy.isEmpty then []
    else Text.ofString " ORDER BY " ++
      Text.join ", " (orderBy.map fun (key, direction) => key.print ++ " " ++ direction.name)) ++
  (limit.map fun n => Text.ofString " LIMIT " ++ Text.ofNat n).getD [] ++
  (offset.map fun n => Text.ofString " OFFSET " ++ Text.ofNat n).getD []

mutual

/-- Every condition stands in brackets, so the text keeps its structure. -/
def Condition.print : Condition → Text
  | .compare left comparator right =>
    "(" ++ left.print ++ " " ++ comparator.symbol ++ " " ++ right.print ++ ")"
  | .isNull value => "(" ++ value.print ++ " IS NULL)"
  | .inValues value values =>
    "(" ++ value.print ++ " IN (" ++ Text.join ", " (values.map (·.print)) ++ "))"
  | .inQuery value query => "(" ++ value.print ++ " IN (" ++ query.print ++ "))"
  | .not condition => "(NOT " ++ condition.print ++ ")"
  | .junction connective conditions =>
    "(" ++ Text.join (" " ++ connective.symbol ++ " ") (Condition.printAll conditions) ++ ")"

def Condition.printAll : List Condition → List Text
  | [] => []
  | condition :: conditions => condition.print :: Condition.printAll conditions

/-- The text of a statement, on one line. -/
def Statement.print : Statement → Text
  | ⟨outputs, table, joins, none, groupBy, orderBy, limit, offset⟩ =>
    printHead outputs table joins ++ printTail groupBy orderBy limit offset
  | ⟨outputs, table, joins, some condition, groupBy, orderBy, limit, offset⟩ =>
    printHead outputs table joins ++ " WHERE " ++ condition.print ++
      printTail groupBy orderBy limit offset

end
end RecordQuery.Sql
