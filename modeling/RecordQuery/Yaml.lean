import RecordQuery.Text

namespace RecordQuery

/-- A document of settings or declarations, as far as they need the format: scalars, lists and
mappings whose keys are scalars. -/
inductive Yaml where
  /-- A scalar is plain or quoted; only a plain one can mean something other than text. -/
  | scalar (text : Text) (plain : Bool)
  | list (items : List Yaml)
  | map (entries : List (Text × Yaml))
  deriving Repr

namespace Yaml

/-- Nothing where a value could be. -/
def nothing : Yaml := scalar [] true

def nullWords : List Text := ["", "~", "null", "Null", "NULL"]

def isNull : Yaml → Bool
  | scalar text true => nullWords.contains text
  | _ => false

end Yaml
end RecordQuery
