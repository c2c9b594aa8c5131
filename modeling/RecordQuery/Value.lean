import RecordQuery.Number.Shortest

namespace RecordQuery

/-- What a property is compared with. Queries give text; documents also truth values and numbers. -/
inductive Value where
  | text (value : Text)
  | bool (value : Bool)
  | int (value : Int)
  /-- A whole number of a kind that number fields do not take. -/
  | unsigned (value : Nat)
  | float (value : Double)
  | decimal (value : Decimal)
  | null
  deriving DecidableEq, Repr

/-- How a value is written, without quotes. -/
def Value.written : Value → Text
  | text t => t
  | bool true => "true"
  | bool false => "false"
  | int n => Text.ofInt n
  | unsigned n => Text.ofNat n
  | float x => x.plain
  | decimal d => d.text
  | null => []

end RecordQuery
