import RecordQuery.Schema
import RecordQuery.Schema.DerivedId
import RecordQuery.Text.Title

namespace RecordQuery

inductive FieldFault where
  | missingKind
  | unknownKind (name : Text)
  | unknownTarget (type : Text)
  | inverse (target field owner : Text)
  | unknownLinking (type : Text)
  | linking (link field type : Text)
  | noExpression
  | unknownPart (field : Text)
  | partNotScalar (field : Text)
  deriving DecidableEq, Repr

def FieldFault.message : FieldFault → Text
  | missingKind => "missing datatype"
  | unknownKind name => "unknown datatype " ++ name.quoted
  | unknownTarget type => "unknown target type " ++ type.quoted
  | inverse target field owner =>
    "inverse field " ++ target ++ "." ++ field ++ " must reference " ++ owner
  | unknownLinking type => "unknown linking type " ++ type.quoted
  | linking link field type => "linking field " ++ link ++ "." ++ field ++ " must reference " ++ type
  | noExpression => "formula field without an expression"
  | unknownPart field => "formula references unknown field " ++ field
  | partNotScalar field => "formula references non-scalar field " ++ field

/-- Why declarations make no schema. -/
inductive DeclarationError where
  | namelessType
  | duplicateType (type : Text)
  | duplicateTypeId (id type : Text)
  | fieldName (type field : Text)
  | duplicateField (type field : Text)
  | inField (type field : Text) (fault : FieldFault)
  | idKind (type : Text)
  | defaultField (type field : Text)
  deriving DecidableEq, Repr

def DeclarationError.message : DeclarationError → Text
  | namelessType => "type without a name"
  | duplicateType type => "duplicate type " ++ type
  | duplicateTypeId id type => "duplicate type id " ++ id ++ " (type " ++ type ++ ")"
  | fieldName type field => "type " ++ type ++ ": invalid field name " ++ field.quoted
  | duplicateField type field => "type " ++ type ++ ": duplicate field " ++ field
  | inField type field fault => "type " ++ type ++ ", field " ++ field ++ ": " ++ fault.message
  | idKind type => "type " ++ type ++ ": field id must have kind id"
  | defaultField type field =>
    "type " ++ type ++ ": default field " ++ field ++ " is not a scalar field"

/-- The text, or the default if it is empty. -/
def Text.orElse (t default : Text) : Text := if t.isEmpty then default else t

/-- Whether a field is stored in a column of its own record. -/
def Kind.hasColumn (kind : Kind) : Bool := kind != .formula && !kind.isCollection

/-- Fills in the id, the column and the label. -/
def Field.complete (owner : Text) (field : Field) : Field :=
  { field with
    id := field.id.orElse (DerivedId.ofField owner field.name)
    column := if field.kind.hasColumn then field.column.orElse field.name.lower else field.column
    label := field.label.orElse field.name.title }

/-- Fills in the id, the table, the label, the field that identifies a record, and all fields. -/
def RecordType.complete (type : RecordType) : RecordType :=
  let fields := match type.idField? with
    | some _ => type.fields
    | none => { name := idName, kind := .id } :: type.fields
  { type with
    id := type.id.orElse (DerivedId.ofType type.name)
    table := type.table.orElse type.shortName.lower
    label := type.label.orElse type.shortName.title
    fields := fields.map (·.complete type.name) }

namespace Schema

/-- Completes the types in turn, if their names and ids differ. -/
def accept (accepted : List RecordType) : List RecordType → Except DeclarationError (List RecordType)
  | [] => .ok accepted
  | type :: rest =>
    if type.name.isEmpty then .error .namelessType
    else if accepted.any (·.name == type.name) then .error (.duplicateType type.name)
    else
      let type := type.complete
      if accepted.any (·.id == type.id) then .error (.duplicateTypeId type.id type.name)
      else accept (accepted ++ [type]) rest

mutual

/-- A formula reads scalar fields of its own record. -/
def checkFormula (owner : RecordType) : Formula → Except FieldFault Unit
  | .missing | .text _ => .ok ()
  | .field name =>
    match owner.field? name with
    | none => .error (.unknownPart name)
    | some field =>
      if field.kind.isPrimitive && field.kind != .formula then .ok ()
      else .error (.partNotScalar name)
  | .concat parts => checkParts owner parts

def checkParts (owner : RecordType) : List Formula → Except FieldFault Unit
  | [] => .ok ()
  | part :: parts => do
    checkFormula owner part
    checkParts owner parts

end

/-- The field of the linking type leads to the given type. -/
def checkLink (link : RecordType) (field type : Text) : Except FieldFault Unit :=
  if (link.field? field).any (·.target == type) then .ok ()
  else .error (.linking link.name field type)

def checkKind (schema : Schema) (owner : RecordType) (field : Field) : Except FieldFault Unit := do
  match field.kind with
  | .unspecified => throw .missingKind
  | .reference | .inverse | .association =>
    let some target := schema.typeNamed? field.target | throw (.unknownTarget field.target)
    match field.kind with
    | .inverse =>
      unless (target.field? field.inverse).any fun back =>
          back.kind == .reference && back.target == owner.name do
        throw (.inverse target.name field.inverse owner.name)
    | .association =>
      let some link := schema.typeNamed? field.linking | throw (.unknownLinking field.linking)
      checkLink link field.linkSelf owner.name
      checkLink link field.linkForeign target.name
    | _ => pure ()
  | .formula =>
    if field.formula.isMissing then throw .noExpression
    checkFormula owner field.formula
  | _ => pure ()

/-- Names and ids are distinct within a type, and names are single words. -/
def checkFields (schema : Schema) (owner : RecordType) (before : List Field) :
    List Field → Except DeclarationError Unit
  | [] => .ok ()
  | field :: rest => do
    if field.name.isEmpty || field.name.contains (Text.ascii '.') then
      throw (.fieldName owner.name field.name)
    if before.any fun other => other.name == field.name || other.id == field.id then
      throw (.duplicateField owner.name field.name)
    (schema.checkKind owner field).mapError (.inField owner.name field.name)
    schema.checkFields owner (before ++ [field]) rest

def checkType (schema : Schema) (type : RecordType) : Except DeclarationError Unit := do
  schema.checkFields type [] type.fields
  unless type.idField?.any (·.kind == .id) do throw (.idKind type.name)
  unless type.defaultField.isEmpty ||
      (type.field? type.defaultField).any (·.kind.isPrimitive) do
    throw (.defaultField type.name type.defaultField)

def checkTypes (schema : Schema) : List RecordType → Except DeclarationError Unit
  | [] => .ok ()
  | type :: rest => do
    schema.checkType type
    schema.checkTypes rest

/-- The schema of the declared types. -/
def build (types : List RecordType) : Except DeclarationError Schema := do
  let schema : Schema := ⟨← accept [] types⟩
  schema.checkTypes schema.types
  return schema

/-- The types by name. -/
def sorted (schema : Schema) : List RecordType := schema.types.mergeSort fun a b => a.name.le b.name

end Schema
end RecordQuery
