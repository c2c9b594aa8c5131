import RecordQuery.Text

namespace RecordQuery

/-- A JSON value. Numbers keep their text and objects the order of their members. -/
inductive Json where
  | null
  | bool (value : Bool)
  | number (text : Text)
  | string (value : Text)
  | array (items : List Json)
  | object (members : List (Text × Json))
  deriving Repr

end RecordQuery
