import RecordQuery.Document

/-! Documents as JSON. Empty parts are left out, but a node always has its operator. -/
namespace RecordQuery

def Value.toJson : Value → Json
  | .text t => .string t
  | .bool b => .bool b
  | .int n => .number (Text.ofInt n)
  | .unsigned n => .number (Text.ofNat n)
  | .float x => .number x.scientific
  | .decimal d => .string d.text
  | .null => .null

def textMember (key : String) (value : Text) : List (Text × Json) :=
  if value.isEmpty then [] else [(Text.ofString key, .string value)]

def idMember (key : String) (id : PropertyId) : List (Text × Json) :=
  if id.isEmpty then [] else [(Text.ofString key, id.toJson)]

def listMember (key : String) (items : List Json) : List (Text × Json) :=
  if items.isEmpty then [] else [(Text.ofString key, .array items)]

def countMember (key : String) (count : Option Int) : List (Text × Json) :=
  match count with
  | none => []
  | some n => [(Text.ofString key, .number (Text.ofInt n))]

def PropertyRef.members (ref : PropertyRef) : List (Text × Json) :=
  idMember "property_id" ref.id ++ textMember "property_name" ref.name

def SelectedProperty.toJson (property : SelectedProperty) : Json :=
  .object (idMember "id" property.ref.id ++ textMember "name" property.ref.name ++
    textMember "alias" property.label ++ textMember "aggregateFunction" property.function)

def DocumentOrdering.toJson (ordering : DocumentOrdering) : Json :=
  .object (ordering.ref.members ++ textMember "sortDirection" ordering.direction)

mutual

def DocumentNode.toJson : DocumentNode → Json
  | ⟨operator, ref, args⟩ =>
    .object ((Text.ofString "operator", .string operator) :: ref.members ++
      listMember "args" (Argument.toJsons args))

def Argument.toJson : Argument → Json
  | .value value => value.toJson
  | .restriction node => node.toJson
  | .subquery document => document.toJson

def Argument.toJsons : List Argument → List Json
  | [] => []
  | arg :: args => arg.toJson :: Argument.toJsons args

def DocumentNode.toJsons : List DocumentNode → List Json
  | [] => []
  | node :: nodes => node.toJson :: DocumentNode.toJsons nodes

def Document.toJson : Document → Json
  | ⟨typeId, typeName, properties, groupings, restrictions, orderings, limit, offset⟩ =>
    .object (textMember "baseTypeId" typeId ++ textMember "baseTypeName" typeName ++
      listMember "properties" (properties.map (·.toJson)) ++
      listMember "groupings" (groupings.map fun ref => .object ref.members) ++
      listMember "restrictions" (DocumentNode.toJsons restrictions) ++
      listMember "orderings" (orderings.map (·.toJson)) ++
      countMember "limit" limit ++ countMember "offset" offset)

end

/-- The text of a document. There always is one, also for a document that is nested deeper than 10000 levels,
which ought to be refused: its text is too deep to be read back. -/
def Document.write (document : Document) : Text := document.toJson.indentedText

end RecordQuery
