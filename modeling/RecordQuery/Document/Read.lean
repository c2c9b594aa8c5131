import RecordQuery.Document
import RecordQuery.Error

/-! Documents out of JSON. Keys match in any case; an unknown one is ignored, and of a repeated one
the last counts, except that lists of plain entries are read into the entries of the list before.
A part of the wrong type does not end the reading, for a malformed restriction that comes later is
reported in its place. -/
namespace RecordQuery

/-- Why a text is no document. -/
inductive ReadError where
  | undecodable
  | malformed (error : SyntaxError)
  deriving DecidableEq, Repr

def ReadError.message : ReadError → Text
  | undecodable => "failed to decode JCR document"
  | malformed error => error.message

namespace Document

/-- What has been read, and whether all of it had the right type. -/
structure Reading (α : Type) where
  value : α
  fits : Bool

variable {α : Type}

def Reading.ok (value : α) : Reading α := ⟨value, true⟩

def Reading.wrong (value : α) : Reading α := ⟨value, false⟩

/-- The key among the given ones that is meant: the very same one, or one that differs in case. -/
def keyFor? (keys : List Text) (written : Text) : Option Text :=
  if keys.contains written then some written else keys.find? (·.sameFold written)

def readText (before : Text) : Json → Reading Text
  | .string t => .ok t
  | .null => .ok before
  | _ => .wrong before

/-- A number that fits 64 bits with sign. -/
def int64? (written : Text) : Option Int :=
  (Text.toInt? written).filter fun n => -0x8000000000000000 ≤ n && n < 0x8000000000000000

def readCount (before : Option Int) : Json → Reading (Option Int)
  | .null => .ok none
  | .number written =>
    match int64? written with
    | some n => .ok (some n)
    | none => .wrong before
  | _ => .wrong before

def readId (value : Json) : Except ReadError PropertyId :=
  (PropertyId.ofJson value).mapError fun _ => .undecodable

/-- Reads the members of an object in turn, those with one of the given keys. -/
def readMembers (keys : List Text)
    (read : α → (key : Text) → Json → Except ReadError (Reading α)) (start : Reading α) :
    List (Text × Json) → Except ReadError (Reading α)
  | [] => .ok start
  | (written, value) :: rest =>
    match keyFor? keys written with
    | none => readMembers keys read start rest
    | some key => do
      let next ← read start.value key value
      readMembers keys read ⟨next.value, start.fits && next.fits⟩ rest

/-- An object with the given keys; null changes nothing. -/
def readObject (keys : List Text)
    (read : α → (key : Text) → Json → Except ReadError (Reading α)) (before : α) :
    Json → Except ReadError (Reading α)
  | .object members => readMembers keys read (.ok before) members
  | .null => .ok (.ok before)
  | _ => .ok (.wrong before)

/-- Each item is read into the entry of the list before that has its place. -/
def readItems (read : α → Json → Except ReadError (Reading α)) (blank : α) (before : List α) :
    List Json → Except ReadError (Reading (List α))
  | [] => .ok (.ok [])
  | item :: items => do
    let first ← read (before.headD blank) item
    let more ← readItems read blank before.tail items
    return ⟨first.value :: more.value, first.fits && more.fits⟩

def readList (read : α → Json → Except ReadError (Reading α)) (blank : α) (before : List α) :
    Json → Except ReadError (Reading (List α))
  | .array items => readItems read blank before items
  | .null => .ok (.ok [])
  | _ => .ok (.wrong before)

def refKeys : List Text := ["property_id", "property_name"]

def readRefMember (ref : PropertyRef) (key : Text) (value : Json) :
    Except ReadError (Reading PropertyRef) :=
  if key = "property_id" then do return .ok { ref with id := ← readId value }
  else
    let name := readText ref.name value
    .ok ⟨{ ref with name := name.value }, name.fits⟩

def readRef (before : PropertyRef) : Json → Except ReadError (Reading PropertyRef) :=
  readObject refKeys readRefMember before

def readOrdering (before : DocumentOrdering) : Json → Except ReadError (Reading DocumentOrdering) :=
  readObject (refKeys ++ [Text.ofString "sortDirection"]) (fun ordering key value =>
    if key = "sortDirection" then
      let direction := readText ordering.direction value
      .ok ⟨{ ordering with direction := direction.value }, direction.fits⟩
    else do
      let ref ← readRefMember ordering.ref key value
      return ⟨{ ordering with ref := ref.value }, ref.fits⟩) before

def readProperty (before : SelectedProperty) :
    Json → Except ReadError (Reading SelectedProperty) :=
  readObject ["id", "name", "alias", "aggregateFunction"] (fun property key value =>
    if key = "id" then do
      return .ok { property with ref := { property.ref with id := ← readId value } }
    else if key = "name" then
      let name := readText property.ref.name value
      .ok ⟨{ property with ref := { property.ref with name := name.value } }, name.fits⟩
    else if key = "alias" then
      let label := readText property.label value
      .ok ⟨{ property with label := label.value }, label.fits⟩
    else
      let function := readText property.function value
      .ok ⟨{ property with function := function.value }, function.fits⟩) before

/-- A number is whole if it is written so and fits 64 bits, else the nearest double. -/
def readNumber (written : Text) : Except ReadError Value :=
  match int64? written with
  | some n => .ok (.int n)
  | none =>
    match Double.parse? written with
    | some x => if x.isInfinite then .error .undecodable else .ok (.float x)
    | none => .error .undecodable

/-- A node of which the arguments are read when the operator is known. -/
structure NodeDraft where
  operator : Text := []
  ref : PropertyRef := {}
  args : (operator : Text) → Except ReadError (List Argument) := fun _ => .ok []

def nodeKeys : List Text := ["operator", "property_id", "property_name", "args"]

def documentKeys : List Text :=
  ["baseTypeId", "baseTypeName", "properties", "groupings", "restrictions", "orderings", "limit",
    "offset"]

/-- Reads a member of a node other than its arguments. -/
def readNodeMember (draft : Reading NodeDraft) (key : Text) (value : Json) :
    Except ReadError (Reading NodeDraft) :=
  if key = "operator" then
    let operator := readText draft.value.operator value
    .ok ⟨{ draft.value with operator := operator.value }, draft.fits && operator.fits⟩
  else do
    let ref ← readRefMember draft.value.ref key value
    return ⟨{ draft.value with ref := ref.value }, draft.fits && ref.fits⟩

/-- Reads a member of a document other than its restrictions. -/
def readDocumentMember (document : Document) (key : Text) (value : Json) :
    Except ReadError (Reading Document) :=
  if key = "baseTypeId" then
    let text := readText document.typeId value
    .ok ⟨{ document with typeId := text.value }, text.fits⟩
  else if key = "baseTypeName" then
    let text := readText document.typeName value
    .ok ⟨{ document with typeName := text.value }, text.fits⟩
  else if key = "properties" then do
    let list ← readList readProperty {} document.properties value
    return ⟨{ document with properties := list.value }, list.fits⟩
  else if key = "groupings" then do
    let list ← readList readRef {} document.groupings value
    return ⟨{ document with groupings := list.value }, list.fits⟩
  else if key = "orderings" then do
    let list ← readList readOrdering {} document.orderings value
    return ⟨{ document with orderings := list.value }, list.fits⟩
  else if key = "limit" then
    let count := readCount document.limit value
    .ok ⟨{ document with limit := count.value }, count.fits⟩
  else
    let count := readCount document.offset value
    .ok ⟨{ document with offset := count.value }, count.fits⟩

/-- A malformed argument of an operator. -/
def badArgument (operator : Text) (cause : Cause) : ReadError :=
  .malformed ⟨none, operator, cause⟩

mutual

def readNode : Json → Except ReadError DocumentNode
  | .null => .ok .empty
  | .object members => do
    let draft ← readDraft (.ok {}) members
    if !draft.fits then throw .undecodable
    return ⟨draft.value.operator, draft.value.ref, ← draft.value.args draft.value.operator⟩
  | _ => .error .undecodable

def readDraft (draft : Reading NodeDraft) :
    List (Text × Json) → Except ReadError (Reading NodeDraft)
  | [] => .ok draft
  | (written, .array items) :: rest =>
    match keyFor? nodeKeys written with
    | none => readDraft draft rest
    | some key =>
      if key = "args" then
        readDraft ⟨{ draft.value with args := fun operator => readArguments operator items },
          draft.fits⟩ rest
      else do readDraft (← readNodeMember draft key (.array items)) rest
  | (written, value) :: rest =>
    match keyFor? nodeKeys written with
    | none => readDraft draft rest
    | some key =>
      if key = "args" then
        readDraft ⟨{ draft.value with args := fun _ => .ok [] },
          draft.fits && value matches .null⟩ rest
      else do readDraft (← readNodeMember draft key value) rest

/-- The arguments of an operator; null is none. -/
def readArguments (operator : Text) : List Json → Except ReadError (List Argument)
  | [] => .ok []
  | .null :: items => readArguments operator items
  | .object members :: items => do
    let first ← match Operator.ofName? operator with
      | some (.connect _) | some .not => do pure (.restriction (← readNode (.object members)))
      | some .isIn => do
        let document ← readDocument (.object members)
        if document.fits then pure (.subquery document.value) else throw .undecodable
      | _ => throw (badArgument operator (.unexpectedObject operator))
    return first :: (← readArguments operator items)
  | .array _ :: _ => .error (badArgument operator (.unsupportedArgument operator))
  | .string t :: items => do return .value (.text t) :: (← readArguments operator items)
  | .bool b :: items => do return .value (.bool b) :: (← readArguments operator items)
  | .number written :: items => do
    let first ← readNumber written
    return .value first :: (← readArguments operator items)

def readNodes : List Json → Except ReadError (List DocumentNode)
  | [] => .ok []
  | item :: items => do
    let first ← readNode item
    return first :: (← readNodes items)

def readDocument : Json → Except ReadError (Reading Document)
  | .null => .ok (.ok .empty)
  | .object members => readDocumentMembers (.ok .empty) members
  | _ => .ok (.wrong .empty)

def readDocumentMembers (document : Reading Document) :
    List (Text × Json) → Except ReadError (Reading Document)
  | [] => .ok document
  | (written, .array items) :: rest =>
    match keyFor? documentKeys written with
    | none => readDocumentMembers document rest
    | some key =>
      if key = "restrictions" then do
        let restrictions ← readNodes items
        readDocumentMembers ⟨{ document.value with restrictions }, document.fits⟩ rest
      else do
        let next ← readDocumentMember document.value key (.array items)
        readDocumentMembers ⟨next.value, document.fits && next.fits⟩ rest
  | (written, value) :: rest =>
    match keyFor? documentKeys written with
    | none => readDocumentMembers document rest
    | some key =>
      if key = "restrictions" then
        readDocumentMembers ⟨{ document.value with restrictions := [] },
          document.fits && value matches .null⟩ rest
      else do
        let next ← readDocumentMember document.value key value
        readDocumentMembers ⟨next.value, document.fits && next.fits⟩ rest

end

/-- The document of a JSON value. -/
def ofJson (value : Json) : Except ReadError Document := do
  let document ← readDocument value
  if document.fits then return document.value else throw .undecodable

/-- The document of a text. -/
def read (text : Text) : Except ReadError Document :=
  match Json.parse? text with
  | some value => ofJson value
  | none => .error .undecodable

end Document
end RecordQuery
