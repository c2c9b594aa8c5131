import RecordQuery.Text.Width

namespace RecordQuery

structure TableRow where
  cells : List Text
  /-- Whether a line follows, if there is another row. -/
  ruled : Bool := false

structure Table where
  /-- The titles of the columns. -/
  titles : List Text
  /-- For each column, whether its entries stand at the right. -/
  right : List Bool
  rows : List TableRow

namespace Table

/-- Writes a line over itself after every carriage return. -/
private def overwrite (line : List Rune) (column : Nat) : List Rune → List Rune
  | [] => line
  | .char '\r' :: rest => overwrite line 0 rest
  | rune :: rest =>
    overwrite (line.take column ++ rune :: line.drop (column + 1)) (column + 1) rest

private def dropReturns : Text → Text
  | [] => []
  | [b] => [b]
  | a :: b :: rest => if a = 13 ∧ b = 10 then b :: dropReturns rest else a :: dropReturns (b :: rest)

/-- The lines of a cell. Tabs are four spaces wide. -/
def lines (cell : Text) : List Text :=
  let cell := dropReturns (Text.replace cell 9 "    ")
  (cell.splitOn 10).map fun line =>
    if line.contains 13 then Text.ofRunes (overwrite [] 0 line.runes) else line

private def cellWidth (cell : Text) : Nat := ((lines cell).map (·.width)).foldl max 0

private def widen (widths : List Nat) (cells : List Text) : List Nat :=
  List.zipWith max widths (cells.map cellWidth)

/-- The width of each column. -/
def widths (table : Table) : List Nat :=
  (table.rows.map (·.cells)).foldl widen (table.titles.map cellWidth)

private def repeated (count : Nat) (piece : Text) : Text := (List.replicate count piece).flatten

/-- A line across the table. -/
private def rule (left between right : Text) (widths : List Nat) : Text :=
  left ++ Text.join between (widths.map fun width => repeated (width + 2) "─") ++ right

private def pad (atRight : Bool) (width : Nat) (t : Text) : Text :=
  let blanks := List.replicate (width - t.width) (Text.ascii ' ')
  if atRight then blanks ++ t else t ++ blanks

/-- One line of a row. -/
private def line (widths : List Nat) (right : List Bool) (cells : List Text) : Text :=
  let padded := List.zipWith (fun (width, atRight) cell => " " ++ pad atRight width cell ++ " ")
    (widths.zip right) cells
  "│" ++ Text.join "│" padded ++ "│"

/-- The lines of a row; a cell with fewer lines than others is blank below. -/
private def rowLines (widths : List Nat) (right : List Bool) (cells : List Text) : List Text :=
  let columns := cells.map lines
  let height := (columns.map (·.length)).foldl max 1
  (List.range height).map fun i => line widths right (columns.map fun column => (column[i]?).getD [])

private def body (widths : List Nat) (right : List Bool) : List TableRow → List Text
  | [] => []
  | [row] => rowLines widths right row.cells
  | row :: rows =>
    rowLines widths right row.cells ++ (if row.ruled then [rule "├" "┼" "┤" widths] else []) ++
      body widths right rows

/-- The table, each line ended. -/
def text (table : Table) : Text :=
  let widths := table.widths
  let all := [rule "┌" "┬" "┐" widths] ++ rowLines widths table.right table.titles ++
    [rule "├" "┼" "┤" widths] ++ body widths table.right table.rows ++ [rule "└" "┴" "┘" widths]
  (all.map (· ++ [10])).flatten

end Table
end RecordQuery
