import RecordQuery.Text.Rune

namespace RecordQuery.Json

inductive Lexeme where
  | openObject | closeObject | openArray | closeArray | comma | colon
  /-- The value of a string. -/
  | string (value : Text)
  | number (text : Text)
  | null
  | bool (value : Bool)
  deriving DecidableEq, Repr

/-- A string is written as bytes and UTF-16 units. -/
inductive Piece where
  | byte (b : UInt8)
  | unit (n : Nat)
  deriving DecidableEq, Repr

def hexValue? (b : UInt8) : Option Nat :=
  if Text.isDigit b then some (b.toNat - 48)
  else if 0x61 ≤ b && b ≤ 0x66 then some (b.toNat - 87)
  else if 0x41 ≤ b && b ≤ 0x46 then some (b.toNat - 55)
  else none

def unitOf? (a b c d : UInt8) : Option Nat := do
  return (((← hexValue? a) * 16 + (← hexValue? b)) * 16 + (← hexValue? c)) * 16 + (← hexValue? d)

def escapedByte? (b : UInt8) : Option UInt8 :=
  if b = 0x22 ∨ b = 0x5C ∨ b = 0x2F then some b
  else if b = Text.ascii 'b' then some 0x08
  else if b = Text.ascii 'f' then some 0x0C
  else if b = Text.ascii 'n' then some 0x0A
  else if b = Text.ascii 'r' then some 0x0D
  else if b = Text.ascii 't' then some 0x09
  else none

/-- The pieces between the quotes; none if an escape is malformed or a control byte stands bare. -/
def pieces? : Text → Option (List Piece)
  | [] => some []
  | b :: rest =>
    if b = 0x5C then
      match rest with
      | [] => none
      | c :: rest =>
        if c = Text.ascii 'u' then
          match rest with
          | w :: x :: y :: z :: rest => do
            let n ← unitOf? w x y z
            return .unit n :: (← pieces? rest)
          | _ => none
        else do
          let value ← escapedByte? c
          return .byte value :: (← pieces? rest)
    else if b < 0x20 then none
    else do return .byte b :: (← pieces? rest)

def isHigh (n : Nat) : Bool := 0xD800 ≤ n && n ≤ 0xDBFF

def isLow (n : Nat) : Bool := 0xDC00 ≤ n && n ≤ 0xDFFF

def ofPair (high low : Nat) : Text :=
  Text.ofCode (0x10000 + (high - 0xD800) * 0x400 + (low - 0xDC00))

def lone : Option Nat → Text
  | none => []
  | some _ => Text.ofCode Rune.replacement

/-- Joins surrogate pairs, given the high surrogate just read if there is one; a surrogate on its
own becomes a replacement character. -/
def ofPieces (high : Option Nat) : List Piece → Text
  | [] => lone high
  | .byte b :: rest => lone high ++ b :: ofPieces none rest
  | .unit n :: rest =>
    if isHigh n then lone high ++ ofPieces (some n) rest
    else if isLow n then
      match high with
      | some h => ofPair h n ++ ofPieces none rest
      | none => lone (some n) ++ ofPieces none rest
    else lone high ++ Text.ofCode n ++ ofPieces none rest

/-- The value of a string from what stands between its quotes; stray bytes become replacement
characters. -/
def stringValue? (written : Text) : Option Text :=
  (pieces? written).map fun pieces => Text.ofCodes (ofPieces none pieces).codes

def digitsThen (rest : Text → Bool) (t : Text) : Bool :=
  !(t.takeWhile Text.isDigit).isEmpty && rest (t.dropWhile Text.isDigit)

def isExponent : Text → Bool
  | [] => true
  | e :: t =>
    (e == Text.ascii 'e' || e == Text.ascii 'E') &&
      digitsThen List.isEmpty
        (match t with
        | s :: u => if s == Text.ascii '+' || s == Text.ascii '-' then u else t
        | [] => t)

def isFraction : Text → Bool
  | [] => true
  | b :: t => if b == Text.ascii '.' then digitsThen isExponent t else isExponent (b :: t)

def isUnsigned : Text → Bool
  | [] => false
  | b :: t => if b == Text.ascii '0' then isFraction t else digitsThen isFraction (b :: t)

/-- The grammar of numbers: no leading zero, digits on both sides of a point. -/
def isNumber : Text → Bool
  | [] => false
  | b :: t => if b == Text.ascii '-' then isUnsigned t else isUnsigned (b :: t)

def wordLexeme? (t : Text) : Option Lexeme :=
  if t = "null" then some .null
  else if t = "true" then some (.bool true)
  else if t = "false" then some (.bool false)
  else if isNumber t then some (.number t)
  else none

def isWordByte (b : UInt8) : Bool :=
  Text.isDigit b || (0x61 ≤ b && b ≤ 0x7A) || (0x41 ≤ b && b ≤ 0x5A) || b == Text.ascii '-' ||
    b == Text.ascii '+' || b == Text.ascii '.'

def mark? (b : UInt8) : Option Lexeme :=
  if b = 0x7B then some .openObject
  else if b = 0x7D then some .closeObject
  else if b = 0x5B then some .openArray
  else if b = 0x5D then some .closeArray
  else if b = 0x2C then some .comma
  else if b = 0x3A then some .colon
  else none

def isJsonSpace (b : UInt8) : Bool := b == 0x20 || b == 0x09 || b == 0x0A || b == 0x0D

/-- Where reading stands between two bytes; what has been read of a word or string is reversed. -/
inductive Mode where
  | between
  | word (read : Text)
  | string (read : Text) (escaped : Bool)
  deriving DecidableEq, Repr

/-- What a byte outside words and strings starts. -/
def enter? (b : UInt8) : Option (Option Lexeme × Mode) :=
  if isJsonSpace b then some (none, .between)
  else if b = 0x22 then some (none, .string [] false)
  else if isWordByte b then some (none, .word [b])
  else (mark? b).map fun lexeme => (some lexeme, .between)

def leave? : Mode → Option (List Lexeme)
  | .between => some []
  | .word read => (wordLexeme? read.reverse).map fun lexeme => [lexeme]
  | .string _ _ => none

/-- One byte: the lexemes it ends, and where reading then stands. -/
def Mode.step? (mode : Mode) (b : UInt8) : Option (List Lexeme × Mode) :=
  match mode with
  | .between => (enter? b).map fun (lexeme, mode) => (lexeme.toList, mode)
  | .word read =>
    if isWordByte b then some ([], .word (b :: read))
    else do
      let word ← wordLexeme? read.reverse
      let (lexeme, mode) ← enter? b
      return (word :: lexeme.toList, mode)
  | .string read escaped =>
    if escaped then some ([], .string (b :: read) false)
    else if b = 0x5C then some ([], .string (b :: read) true)
    else if b = 0x22 then
      (stringValue? read.reverse).map fun value => ([.string value], .between)
    else some ([], .string (b :: read) false)

def lexFrom (mode : Mode) (found : List Lexeme) : Text → Option (List Lexeme)
  | [] => (leave? mode).map fun last => (last.reverse ++ found).reverse
  | b :: rest =>
    match mode.step? b with
    | none => none
    | some (lexemes, mode) => lexFrom mode (lexemes.reverse ++ found) rest

/-- All lexemes of a text. -/
def lexemes? (t : Text) : Option (List Lexeme) := lexFrom .between [] t

end RecordQuery.Json
