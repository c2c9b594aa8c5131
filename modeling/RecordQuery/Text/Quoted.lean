import RecordQuery.Text.Rune
import RecordQuery.Text.PrintableTable

/-! Text in double quotes, for messages and logs: printable characters stand for themselves, the
rest is escaped, stray bytes as two hexadecimal digits. -/
namespace RecordQuery.Text

/-- Of the blank characters only the space is printable. -/
def isPrintable (code : Nat) : Bool := code == 0x20 || inRanges printableTable code

def hexDigit (n : Nat) : UInt8 := ascii (Nat.digitChar n)

/-- The last `width` hexadecimal digits. -/
def hex : (width : Nat) → Nat → Text
  | 0, _ => []
  | width + 1, n => hex width (n / 16) ++ [hexDigit (n % 16)]

private def shortEscape? (code : Nat) : Option Char :=
  match code with
  | 0x07 => some 'a'
  | 0x08 => some 'b'
  | 0x0C => some 'f'
  | 0x0A => some 'n'
  | 0x0D => some 'r'
  | 0x09 => some 't'
  | 0x0B => some 'v'
  | _ => none

private def escapeCode (code : Nat) : Text :=
  if code = 0x22 ∨ code = 0x5C then ascii '\\' :: ofCode code
  else if isPrintable code then ofCode code
  else match shortEscape? code with
    | some c => [ascii '\\', ascii c]
    | none =>
      if code < 0x20 ∨ code = 0x7F then "\\x" ++ hex 2 code
      else if code < 0x10000 then "\\u" ++ hex 4 code
      else "\\U" ++ hex 8 code

private def escapeRune : Rune → Text
  | .char c => escapeCode c.toNat
  | .stray b => "\\x" ++ hex 2 b.toNat

def quoted (t : Text) : Text := "\"" ++ t.runes.flatMap escapeRune ++ "\""

end RecordQuery.Text
