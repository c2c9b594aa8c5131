import RecordQuery.Kind

namespace RecordQuery

/-- The expression of a computed field over the fields beside it. -/
inductive Formula where
  | missing
  | field (name : Text)
  | text (value : Text)
  | concat (parts : List Formula)
  deriving Repr

def Formula.isMissing : Formula → Bool
  | missing => true
  | _ => false

structure Field where
  id : Text := []
  /-- The name in queries. -/
  name : Text := []
  /-- The name on display. -/
  label : Text := []
  /-- The name in the database. -/
  column : Text := []
  kind : Kind := .unspecified
  /-- The type that a relationship leads to. -/
  target : Text := []
  /-- The reference of the target that leads back, for an inverse. -/
  inverse : Text := []
  /-- The type whose records link both sides of an association, and its two references. -/
  linking : Text := []
  linkSelf : Text := []
  linkForeign : Text := []
  formula : Formula := .missing
  deriving Repr

structure RecordType where
  id : Text := []
  /-- The name with its package, such as `acme.Pigeon`. -/
  name : Text := []
  label : Text := []
  table : Text := []
  /-- The field that a wildcard selects. -/
  defaultField : Text := []
  fields : List Field := []
  deriving Repr

/-- The name of the field that identifies a record. -/
def idName : Text := "id"

namespace RecordType

def field? (type : RecordType) (name : Text) : Option Field := type.fields.find? (·.name == name)

def fieldById? (type : RecordType) (id : Text) : Option Field := type.fields.find? (·.id == id)

def idField? (type : RecordType) : Option Field := type.field? idName

/-- The column that identifies a record. -/
def idColumn (type : RecordType) : Text := (type.idField?.map (·.column)).getD []

/-- The name without its package. -/
def shortName (type : RecordType) : Text := type.name.afterLast (Text.ascii '.')

end RecordType

/-- The types that queries can speak of. The first one of a name or an id counts. -/
structure Schema where
  types : List RecordType
  deriving Repr

namespace Schema

def typeNamed? (schema : Schema) (name : Text) : Option RecordType :=
  schema.types.find? (·.name == name)

def typeById? (schema : Schema) (id : Text) : Option RecordType := schema.types.find? (·.id == id)

end Schema

/-- The packages in which an unqualified type name is looked up. -/
structure Packages where
  base : Text
  system : Text
  deriving DecidableEq, Repr

def Packages.defaultSystem : Text := "platform.basic"

private def qualified? (schema : Schema) (package name : Text) : Option RecordType :=
  if package.isEmpty then none else schema.typeNamed? (package ++ "." ++ name)

/-- The type of this name, else the one in the base package, else, for a name without package, the
one in the system package. -/
def Schema.resolve? (schema : Schema) (packages : Packages) (name : Text) : Option RecordType :=
  schema.typeNamed? name <|> qualified? schema packages.base name <|>
    if name.contains (Text.ascii '.') then none else qualified? schema packages.system name

theorem Schema.typeNamed?_name {schema : Schema} {name : Text} {type : RecordType}
    (found : schema.typeNamed? name = some type) : schema.typeNamed? type.name = some type := by
  have same : type.name = name := by simpa using List.find?_some found
  rw [same]
  exact found

private theorem typeNamed?_of_qualified? {schema : Schema} {package name : Text} {type : RecordType}
    (found : qualified? schema package name = some type) :
    schema.typeNamed? type.name = some type := by
  unfold qualified? at found
  split at found
  · cases found
  · exact Schema.typeNamed?_name found

/-- Whatever name it was found by, a type goes by its full name. -/
theorem Schema.typeNamed?_of_resolve? {schema : Schema} {packages : Packages} {name : Text}
    {type : RecordType} (found : schema.resolve? packages name = some type) :
    schema.typeNamed? type.name = some type := by
  simp only [resolve?, Option.orElse_eq_orElse, Option.orElse_eq_or, Option.or_eq_some_iff] at found
  rcases found with direct | ⟨_, base | ⟨_, system⟩⟩
  · exact typeNamed?_name direct
  · exact typeNamed?_of_qualified? base
  · split at system
    · cases system
    · exact typeNamed?_of_qualified? system

theorem Schema.resolve?_of_typeNamed? {schema : Schema} {packages : Packages} {name : Text}
    {type : RecordType} (found : schema.typeNamed? name = some type) :
    schema.resolve? packages name = some type := by
  simp [resolve?, found]

end RecordQuery
