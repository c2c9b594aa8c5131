import RecordQuery.Text.Blank
import RecordQuery.Text.Quoted

namespace RecordQuery.Log

private def isPlain : Rune → Bool
  | .stray _ => false
  | .char c =>
    let code := c.toNat
    if code < 0x80 then 0x20 < code && code ≠ 0x3D && code ≠ 0x22
    else code ≠ 0xFFFD && !Text.isBlankCode code && Text.isPrintable code

/-- A value, in quotes unless it is a single plain word. -/
def value (t : Text) : Text := if !t.isEmpty && t.runes.all isPlain then t else t.quoted

/-- A line about what the tool does. -/
def debug (message : Text) (attributes : List (Text × Text)) : Text :=
  Text.join " " ((("level=DEBUG" : Text) :: ("msg=" ++ value message) ::
    attributes.map fun (name, t) => name ++ "=" ++ value t))

end RecordQuery.Log
