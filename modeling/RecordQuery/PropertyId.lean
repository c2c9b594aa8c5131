import RecordQuery.Json.Reader
import RecordQuery.Json.Writer

namespace RecordQuery

abbrev PropertyId := List Text

namespace PropertyId

inductive Error where
  | emptySegment (written : Text)
  | notString
  deriving DecidableEq, Repr

def Error.message : Error → Text
  | emptySegment written => "invalid property id " ++ written.quoted ++ ": empty segment"
  | notString => "property id must be a string"

def parse (t : Text) : Except Error PropertyId :=
  if t.isEmpty then .ok []
  else
    let ids := t.splitOn (Text.ascii '.')
    if ids.any (·.isEmpty) then .error (.emptySegment t) else .ok ids

def text (id : PropertyId) : Text := Text.join "." id

def toJson (id : PropertyId) : Json := .string id.text

/-- Null is no id at all. -/
def ofJson : Json → Except Error PropertyId
  | .null => .ok []
  | .string t => parse t
  | _ => .error .notString

/-- Reads a JSON text. -/
def ofJsonText (t : Text) : Except Error PropertyId :=
  match Json.parse? t with
  | some value => ofJson value
  | none => .error .notString

end PropertyId
end RecordQuery
