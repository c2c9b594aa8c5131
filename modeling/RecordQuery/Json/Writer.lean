import RecordQuery.Json
import RecordQuery.Text.Quoted

/-! Writing JSON. Signs that mean something to a web page are escaped, and so are the two line
separators; other characters stay. -/
namespace RecordQuery.Json

def escape (code : Nat) : Text :=
  if code = 0x22 ∨ code = 0x5C then [0x5C, code.toUInt8]
  else if code = 0x08 then "\\b"
  else if code = 0x0C then "\\f"
  else if code = 0x0A then "\\n"
  else if code = 0x0D then "\\r"
  else if code = 0x09 then "\\t"
  else if code < 0x20 ∨ code = 0x3C ∨ code = 0x3E ∨ code = 0x26 ∨ code = 0x2028 ∨ code = 0x2029 then
    "\\u" ++ Text.hex 4 code
  else Text.ofCode code

def escapeRune : Rune → Text
  | .char c => escape c.toNat
  | .stray _ => "\\ufffd"

def writeString (t : Text) : Text := "\"" ++ t.runes.flatMap escapeRune ++ "\""

/-- How containers are laid out: on one line, or each entry on its own at this depth. -/
inductive Layout where
  | compact
  | indented (depth : Nat)

namespace Layout

def inner : Layout → Layout
  | compact => compact
  | indented depth => indented (depth + 1)

def newline : Layout → Text
  | compact => []
  | indented depth => 0x0A :: List.replicate (2 * depth) 0x20

def colon : Layout → Text
  | compact => ":"
  | indented _ => ": "

end Layout

mutual

/-- Writes a value before a text, so that no part of it is copied again by what encloses it. -/
def writeBefore (rest : Text) (layout : Layout) : Json → Text
  | null => "null" ++ rest
  | bool true => "true" ++ rest
  | bool false => "false" ++ rest
  | number text => text ++ rest
  | string value => writeString value ++ rest
  | array [] => "[]" ++ rest
  | array (item :: items) =>
    "[" ++ (layout.inner.newline ++
      writeBefore (writeItems (layout.newline ++ ("]" ++ rest)) layout.inner items) layout.inner item)
  | object [] => "\x7b\x7d" ++ rest
  | object ((key, value) :: members) =>
    "\x7b" ++ (layout.inner.newline ++ (writeString key ++ (layout.colon ++
      writeBefore (writeMembers (layout.newline ++ ("\x7d" ++ rest)) layout.inner members)
        layout.inner value)))

/-- The items after the first one, before a text. -/
def writeItems (rest : Text) (layout : Layout) : List Json → Text
  | [] => rest
  | item :: items =>
    "," ++ (layout.newline ++ writeBefore (writeItems rest layout items) layout item)

/-- The members after the first one, before a text. -/
def writeMembers (rest : Text) (layout : Layout) : List (Text × Json) → Text
  | [] => rest
  | (key, value) :: members =>
    "," ++ (layout.newline ++ (writeString key ++ (layout.colon ++
      writeBefore (writeMembers rest layout members) layout value)))

end

def write (layout : Layout) (value : Json) : Text := writeBefore [] layout value

def compactText (value : Json) : Text := write .compact value

/-- Indented by two spaces. -/
def indentedText (value : Json) : Text := write (.indented 0) value

end RecordQuery.Json
