import RecordQuery.Text

/-! Reading text as UTF-8. A byte that is part of no character stands for itself, so decoding
loses nothing. -/
namespace RecordQuery

inductive Rune where
  | char (c : Char)
  | stray (byte : UInt8)
  deriving DecidableEq

namespace Rune

def bytes : Rune → Text
  | char c => String.utf8EncodeChar c
  | stray b => [b]

/-- The replacement character, which stands in for stray bytes. -/
def replacement : Nat := 0xFFFD

def code : Rune → Nat
  | char c => c.toNat
  | stray _ => replacement

def isChar : Rune → Bool
  | char _ => true
  | stray _ => false

end Rune

namespace Text

def isTail (b : UInt8) : Bool := 0x80 ≤ b && b ≤ 0xBF

def isPair (a b : UInt8) : Bool := 0xC2 ≤ a && a ≤ 0xDF && isTail b

/-- Three bytes of one character: no overlong form, no surrogate. -/
def isTriple (a b c : UInt8) : Bool :=
  0xE0 ≤ a && a ≤ 0xEF && isTail b && isTail c && (a ≠ 0xE0 || 0xA0 ≤ b) && (a ≠ 0xED || b ≤ 0x9F)

/-- Four bytes of one character: no overlong form, nothing above the last code point. -/
def isQuad (a b c d : UInt8) : Bool :=
  0xF0 ≤ a && a ≤ 0xF4 && isTail b && isTail c && isTail d &&
    (a ≠ 0xF0 || 0x90 ≤ b) && (a ≠ 0xF4 || b ≤ 0x8F)

def bits (mask b : UInt8) : Nat := (b &&& mask).toNat

def pairCode (a b : UInt8) : Nat := bits 0x1F a * 64 + bits 0x3F b

def tripleCode (a b c : UInt8) : Nat := (bits 0x0F a * 64 + bits 0x3F b) * 64 + bits 0x3F c

def quadCode (a b c d : UInt8) : Nat :=
  ((bits 0x07 a * 64 + bits 0x3F b) * 64 + bits 0x3F c) * 64 + bits 0x3F d

/-- The rune that starts with byte `a`, and how many of the following bytes belong to it. -/
def firstRune (a : UInt8) (rest : Text) : Rune × Nat :=
  if a < 0x80 then (.char (Char.ofNat a.toNat), 0)
  else match rest with
    | [] => (.stray a, 0)
    | [b] => if isPair a b then (.char (Char.ofNat (pairCode a b)), 1) else (.stray a, 0)
    | [b, c] =>
      if isPair a b then (.char (Char.ofNat (pairCode a b)), 1)
      else if isTriple a b c then (.char (Char.ofNat (tripleCode a b c)), 2)
      else (.stray a, 0)
    | b :: c :: d :: _ =>
      if isPair a b then (.char (Char.ofNat (pairCode a b)), 1)
      else if isTriple a b c then (.char (Char.ofNat (tripleCode a b c)), 2)
      else if isQuad a b c d then (.char (Char.ofNat (quadCode a b c d)), 3)
      else (.stray a, 0)

/-- The runes after the first `skip` bytes. -/
def runesFrom (skip : Nat) : Text → List Rune
  | [] => []
  | a :: rest =>
    match skip with
    | n + 1 => runesFrom n rest
    | 0 => (firstRune a rest).1 :: runesFrom (firstRune a rest).2 rest

/-- The characters and stray bytes in order. -/
def runes (t : Text) : List Rune := runesFrom 0 t

def ofRunes (runes : List Rune) : Text := runes.flatMap Rune.bytes

def isUtf8 (t : Text) : Bool := t.runes.all Rune.isChar

/-- The bytes of a code point. -/
def ofCode (code : Nat) : Text := String.utf8EncodeChar (Char.ofNat code)

def codes (t : Text) : List Nat := t.runes.map Rune.code

def ofCodes (codes : List Nat) : Text := codes.flatMap ofCode

end Text
end RecordQuery
