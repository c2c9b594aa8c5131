import RecordQuery.Digest
import RecordQuery.Text.Quoted

/-! The ids of types and fields that are declared without one. They depend on names only, so the
same declarations have the same ids everywhere. -/
namespace RecordQuery.DerivedId

/-- The namespace of all derived ids. -/
def space : List UInt8 :=
  [0xaf, 0xb7, 0xb3, 0xef, 0xfe, 0xbe, 0x5e, 0xc6, 0xb5, 0x3c, 0x64, 0x20, 0x74, 0x62, 0x7c, 0xf2]

/-- Marks the seventh byte of an id as made from a name's digest. -/
def withVersion (b : UInt8) : UInt8 := (b &&& 0x0f) ||| 0x50

def withVariant (b : UInt8) : UInt8 := (b &&& 0x3f) ||| 0x80

/-- The sixteen bytes of the id of a name. -/
def bytes (name : Text) : List UInt8 :=
  (((Digest.of (space ++ name)).take 16).modify 6 withVersion).modify 8 withVariant

/-- Hexadecimal digits in groups of 8, 4, 4, 4 and 12. -/
def write (id : List UInt8) : Text :=
  let group (start count : Nat) : Text :=
    ((id.drop start).take count).flatMap fun b => Text.hex 2 b.toNat
  Text.join "-" [group 0 4, group 4 2, group 6 2, group 8 2, group 10 6]

def ofType (type : Text) : Text := write (bytes type)

def ofField (type field : Text) : Text := write (bytes (type ++ "#" ++ field))

end RecordQuery.DerivedId
