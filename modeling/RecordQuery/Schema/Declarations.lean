import RecordQuery.Schema.Catalog
import RecordQuery.Yaml.Reader

/-! Declarations of types in a file. Keys are fixed; an unknown or repeated one is an error. -/
namespace RecordQuery

inductive LoadError where
  /-- The text does not have the layout of declarations. -/
  | undecodable
  | rejected (error : DeclarationError)
  deriving DecidableEq, Repr

def LoadError.message : LoadError → Text
  | undecodable => "failed to decode schema"
  | rejected error => error.message

namespace Declarations

/-- A mapping whose keys are among the given ones, each at most once. -/
def entries? (keys : List Text) : Yaml → Option (List (Text × Yaml))
  | .map entries =>
    let names := entries.map (·.1)
    if names.all (keys.contains ·) && names.eraseDups.length = names.length then some entries
    else none
  | _ => none

def valueAt (entries : List (Text × Yaml)) (key : Text) : Yaml :=
  (entries.lookup key).getD Yaml.nothing

def textAt? (entries : List (Text × Yaml)) (key : Text) : Option Text :=
  match valueAt entries key with
  | .scalar text plain => some (if Yaml.isNull (.scalar text plain) then [] else text)
  | _ => none

/-- The elements of a list, which are not null. -/
def itemsAt? (entries : List (Text × Yaml)) (key : Text) : Option (List Yaml) :=
  match valueAt entries key with
  | .list items => some (items.filter (!·.isNull))
  | value => if value.isNull then some [] else none

def part? (value : Yaml) : Option Formula := do
  let entries ← entries? ["field", "text"] value
  let field ← textAt? entries "field"
  let text ← textAt? entries "text"
  return if (valueAt entries "text").isNull then .field field else .text text

def formula : List Formula → Formula
  | [] => .missing
  | [part] => part
  | parts => .concat parts

/-- A field, and the name of its kind. -/
def field? (value : Yaml) : Option (Field × Text) := do
  let entries ← entries? ["id", "name", "label", "column", "type", "target", "inverse", "linking",
    "linkSelf", "linkForeign", "formula"] value
  let parts ← (← itemsAt? entries "formula").mapM part?
  let field : Field :=
    { id := ← textAt? entries "id"
      name := ← textAt? entries "name"
      label := ← textAt? entries "label"
      column := ← textAt? entries "column"
      target := ← textAt? entries "target"
      inverse := ← textAt? entries "inverse"
      linking := ← textAt? entries "linking"
      linkSelf := ← textAt? entries "linkSelf"
      linkForeign := ← textAt? entries "linkForeign"
      formula := formula parts }
  return (field, ← textAt? entries "type")

def type? (value : Yaml) : Option (RecordType × List (Field × Text)) := do
  let entries ← entries? ["id", "name", "label", "table", "defaultField", "fields"] value
  let type : RecordType :=
    { id := ← textAt? entries "id"
      name := ← textAt? entries "name"
      label := ← textAt? entries "label"
      table := ← textAt? entries "table"
      defaultField := ← textAt? entries "defaultField" }
  return (type, ← (← itemsAt? entries "fields").mapM field?)

def types? (value : Yaml) : Option (List (RecordType × List (Field × Text))) := do
  if value.isNull then return []
  let entries ← entries? ["types"] value
  (← itemsAt? entries "types").mapM type?

/-- Gives a field its kind; only a formula field has a formula. -/
def withKind (type : Text) (field : Field) (kindName : Text) :
    Except DeclarationError Field :=
  match Kind.ofName? kindName with
  | none => .error (.inField type field.name (.unknownKind kindName))
  | some kind =>
    .ok { field with kind, formula := if kind = .formula then field.formula else .missing }

def withFields (type : RecordType) (fields : List (Field × Text)) :
    Except DeclarationError RecordType := do
  return { type with fields := ← fields.mapM fun (field, kind) => withKind type.name field kind }

/-- The types that a text declares. -/
def read (text : Text) : Except LoadError (List RecordType) :=
  match (Yaml.read? text).bind types? with
  | none => .error .undecodable
  | some declared =>
    (declared.mapM fun (type, fields) => withFields type fields).mapError .rejected

/-- The schema that a text declares. -/
def load (text : Text) : Except LoadError Schema := do
  (Schema.build (← read text)).mapError .rejected

end Declarations
end RecordQuery
