/-! Text is a sequence of bytes. Nothing requires it to be UTF-8: queries, names and values may
hold any bytes, and every position and length counts bytes. -/
namespace RecordQuery

abbrev Text := List UInt8

namespace Text

/-- The UTF-8 bytes of a string. -/
def ofString (s : String) : Text := s.toList.flatMap String.utf8EncodeChar

instance : Coe String Text := ⟨ofString⟩

/-- The byte of an ASCII character. -/
def ascii (c : Char) : UInt8 := c.toNat.toUInt8

/-- Decimal digits without a sign. -/
def ofNat (n : Nat) : Text := (Nat.toDigits 10 n).map ascii

def ofInt : Int → Text
  | .ofNat n => ofNat n
  | .negSucc n => ascii '-' :: ofNat (n + 1)

def isDigit (b : UInt8) : Bool := ascii '0' ≤ b && b ≤ ascii '9'

/-- The value of a digit byte. -/
def digitValue (b : UInt8) : Nat := b.toNat - 48

/-- The number written by a run of digits; no digits write zero. -/
def digitsValue (digits : Text) : Nat := digits.foldl (fun n b => 10 * n + digitValue b) 0

/-- The number a nonempty run of digits writes. -/
def toNat? (t : Text) : Option Nat :=
  if t.isEmpty || !t.all isDigit then none else some (digitsValue t)

/-- An optional sign, then digits. -/
def toInt? : Text → Option Int
  | [] => none
  | b :: rest =>
    if b = ascii '-' then (toNat? rest).map fun n => -(n : Int)
    else if b = ascii '+' then (toNat? rest).map Int.ofNat
    else (toNat? (b :: rest)).map Int.ofNat

/-- The part before the first separator, and the parts after it and between the others. -/
def splitFirst (separator : UInt8) : Text → Text × List Text
  | [] => ([], [])
  | b :: rest =>
    let (part, parts) := splitFirst separator rest
    if b = separator then ([], part :: parts) else (b :: part, parts)

/-- The parts between the separators; always at least one. -/
def splitOn (separator : UInt8) (t : Text) : List Text :=
  let (part, parts) := splitFirst separator t
  part :: parts

def join (separator : Text) (parts : List Text) : Text := separator.intercalate parts

/-- Replaces every occurrence of a byte. -/
def replace (t : Text) (b : UInt8) (replacement : Text) : Text :=
  t.flatMap fun c => if c = b then replacement else [c]

/-- Bytewise order. -/
def le (s t : Text) : Bool := decide (s ≤ t)

/-- The text after the last occurrence of a byte, all of it if there is none. -/
def afterLast (b : UInt8) (t : Text) : Text := (t.reverse.takeWhile (· ≠ b)).reverse

/-- The text before the last occurrence of a byte. -/
def beforeLast? (b : UInt8) (t : Text) : Option Text :=
  match t.reverse.dropWhile (· ≠ b) with
  | [] => none
  | _ :: before => some before.reverse

/-- What follows the given start, if the text starts so. -/
def after? : (t start : Text) → Option Text
  | t, [] => some t
  | [], _ :: _ => none
  | a :: t, b :: start => if a = b then after? t start else none

end Text
end RecordQuery
