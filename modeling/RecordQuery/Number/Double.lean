import RecordQuery.Text.Case

namespace RecordQuery

/-- A double by its bits: a sign, eleven bits of exponent, fifty-two bits of fraction. -/
structure Double where
  bits : UInt64
  deriving DecidableEq, Repr

namespace Double

private def fractionSize : Nat := 0x10000000000000

/-- The bits without the sign. -/
def magnitude (x : Double) : Nat := x.bits.toNat % 0x8000000000000000

def isNegative (x : Double) : Bool := 0x8000000000000000 ≤ x.bits.toNat

def infinityBits : Nat := 0x7FF0000000000000

def isInfinite (x : Double) : Bool := x.magnitude == infinityBits

def isNaN (x : Double) : Bool := infinityBits < x.magnitude

def isZero (x : Double) : Bool := x.magnitude == 0

/-- The magnitude of a finite number as `m * 2 ^ q`. -/
def scaled (x : Double) : Nat × Int :=
  let exponent := x.magnitude / fractionSize
  let fraction := x.magnitude % fractionSize
  if exponent = 0 then (fraction, -1074) else (fraction + fractionSize, (exponent : Int) - 1075)

def ofMagnitude (negative : Bool) (magnitude : Nat) : Double :=
  ⟨(if negative then 0x8000000000000000 + magnitude else magnitude).toUInt64⟩

def nan : Double := ⟨0x7FF8000000000001⟩

/-- The quotient rounded to the nearest integer, a tie to the even one. -/
def roundDiv (a b : Nat) : Nat :=
  let q := a / b
  let twice := 2 * (a % b)
  if twice < b then q else if b < twice then q + 1 else q + q % 2

/-- The quotient of `a / b` by `2 ^ q`, as a fraction. -/
private def overPow (a b : Nat) (q : Int) : Nat × Nat :=
  if 0 ≤ q then (a, b * Nat.pow 2 q.toNat) else (a * Nat.pow 2 q.natAbs, b)

/-- The exponent for which `a / b` has fifty-three bits before the point, but none below the least. -/
private def exponentFor (a b : Nat) : Int :=
  let guess : Int := (Nat.log2 a : Int) - (Nat.log2 b : Int) - 52
  let (num, den) := overPow a b guess
  let q := if num / den < fractionSize then guess - 1
    else if 2 * fractionSize ≤ num / den then guess + 1
    else guess
  max q (-1074)

/-- The magnitude bits of the double nearest to `a / b`, a tie going to the even one; too large
numbers become infinite. -/
def nearest (a b : Nat) : Nat :=
  if a = 0 then 0
  else
    let q := exponentFor a b
    let (num, den) := overPow a b q
    min infinityBits ((q + 1074).toNat * fractionSize + roundDiv num den)

/-- The magnitude bits nearest to `digits * 10 ^ exponent`. -/
def ofScientific (digits : Nat) (exponent : Int) : Nat :=
  let size : Int := (Nat.toDigits 10 digits).length + exponent
  if digits = 0 ∨ size < -400 then 0
  else if 400 < size then infinityBits
  else if 0 ≤ exponent then nearest (digits * Nat.pow 10 exponent.toNat) 1
  else nearest digits (Nat.pow 10 exponent.natAbs)

private def unsigned? (t : Text) : Option Nat := do
  let mark (b : UInt8) : Bool := b == Text.ascii 'e' || b == Text.ascii 'E'
  let exponent ← match t.dropWhile (!mark ·) with
    | [] => some 0
    | _ :: digits => Text.toInt? digits
  match (t.takeWhile (!mark ·)).splitOn (Text.ascii '.') with
  | [whole] => return ofScientific (← Text.toNat? whole) exponent
  | [whole, fraction] =>
    return ofScientific (← Text.toNat? (whole ++ fraction)) (exponent - fraction.length)
  | _ => none

/-- Reads a decimal number, or a name of infinity or of no number. -/
def parse? (t : Text) : Option Double :=
  let (negative, rest) := match t with
    | b :: rest =>
      if b = Text.ascii '-' then (true, rest)
      else if b = Text.ascii '+' then (false, rest)
      else (false, t)
    | [] => (false, t)
  if Text.sameFold rest "inf" || Text.sameFold rest "infinity" then some (ofMagnitude negative infinityBits)
  else if Text.sameFold t "nan" then some nan
  else (unsigned? rest).map (ofMagnitude negative)

end Double
end RecordQuery
