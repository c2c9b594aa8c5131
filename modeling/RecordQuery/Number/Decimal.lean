import RecordQuery.Text

namespace RecordQuery

/-- The number `coefficient * 10 ^ exponent`. -/
structure Decimal where
  coefficient : Int
  exponent : Int
  deriving DecidableEq, Repr

namespace Decimal

def ofInt (n : Int) : Decimal := ⟨n, 0⟩

def isExponentMark (b : UInt8) : Bool := b == Text.ascii 'e' || b == Text.ascii 'E'

def inInt32 (n : Int) : Bool := -2147483648 ≤ n && n ≤ 2147483647

/-- The exponent after the mark: a signed 32-bit integer, zero if there is no mark. -/
def exponentPart? (t : Text) : Option Int :=
  match t.dropWhile (!isExponentMark ·) with
  | [] => some 0
  | _ :: digits => (Text.toInt? digits).filter inInt32

/-- The digits around the point as one signed integer, and how many of them follow it. The sign is
read where the digits start, so it may also follow a point that nothing precedes. -/
def mantissa? (t : Text) : Option (Int × Nat) :=
  match t.splitOn (Text.ascii '.') with
  | [whole] => (Text.toInt? whole).map (·, 0)
  | [whole, fraction] => (Text.toInt? (whole ++ fraction)).map (·, fraction.length)
  | _ => none

/-- An optional sign, digits with at most one point among them, an optional exponent. -/
def parse? (t : Text) : Option Decimal := do
  let exponent ← exponentPart? t
  let (coefficient, places) ← mantissa? (t.takeWhile (!isExponentMark ·))
  let exponent := exponent - places
  if inInt32 exponent then return ⟨coefficient, exponent⟩ else none

def trimZeros (digits : Text) : Text :=
  (digits.reverse.dropWhile (· == Text.ascii '0')).reverse

/-- Digits with a point before the last `places` of them, zeros at the end dropped. -/
def withPoint (digits : Text) (places : Nat) : Text :=
  let whole := if digits.length ≤ places then [Text.ascii '0'] else digits.take (digits.length - places)
  let fraction := trimZeros
    (List.replicate (places - digits.length) (Text.ascii '0') ++ digits.drop (digits.length - places))
  if fraction.isEmpty then whole else whole ++ Text.ascii '.' :: fraction

private theorem mem_of_mem_trimZeros {b : UInt8} {digits : Text} (member : b ∈ trimZeros digits) :
    b ∈ digits := by
  rw [trimZeros, List.mem_reverse] at member
  exact List.mem_reverse.mp ((List.dropWhile_sublist _).subset member)

theorem mem_withPoint {b : UInt8} {digits : Text} {places : Nat} (member : b ∈ withPoint digits places) :
    b ∈ digits ∨ b = Text.ascii '0' ∨ b = Text.ascii '.' := by
  let whole := if digits.length ≤ places then [Text.ascii '0'] else digits.take (digits.length - places)
  let fraction := trimZeros
    (List.replicate (places - digits.length) (Text.ascii '0') ++ digits.drop (digits.length - places))
  have inWhole : b ∈ whole → b ∈ digits ∨ b = Text.ascii '0' := by
    intro inside
    by_cases short : digits.length ≤ places
    · simp only [whole, if_pos short, List.mem_singleton] at inside
      exact .inr inside
    · simp only [whole, if_neg short] at inside
      exact .inl (List.mem_of_mem_take inside)
  have inFraction : b ∈ fraction → b ∈ digits ∨ b = Text.ascii '0' := by
    intro inside
    rcases List.mem_append.mp (mem_of_mem_trimZeros inside) with zero | digit
    · exact .inr (List.eq_of_mem_replicate zero)
    · exact .inl (List.mem_of_mem_drop digit)
  have made : b ∈ if fraction.isEmpty then whole else whole ++ Text.ascii '.' :: fraction := member
  split at made
  · exact (inWhole made).imp_right .inl
  · simp only [List.mem_append, List.mem_cons] at made
    rcases made with digit | point | digit
    · exact (inWhole digit).imp_right .inl
    · exact .inr (.inr point)
    · exact (inFraction digit).imp_right .inl

theorem withPoint_ne_nil {digits : Text} (filled : digits ≠ []) (places : Nat) : withPoint digits places ≠ [] := by
  have whole : (if digits.length ≤ places then [Text.ascii '0'] else digits.take (digits.length - places)) ≠
      [] := by
    split
    · exact List.cons_ne_nil _ _
    · rename_i long
      rw [Ne, List.take_eq_nil_iff, not_or]
      exact ⟨by omega, filled⟩
  rw [withPoint]
  split
  · exact whole
  · exact List.append_ne_nil_of_left_ne_nil whole _

/-- Without exponent, and without zeros at the end of a fraction. -/
def text (d : Decimal) : Text :=
  let digits := Text.ofNat d.coefficient.natAbs
  let magnitude :=
    if d.coefficient = 0 then digits
    else if 0 ≤ d.exponent then digits ++ List.replicate d.exponent.toNat (Text.ascii '0')
    else withPoint digits d.exponent.natAbs
  if d.coefficient < 0 then Text.ascii '-' :: magnitude else magnitude

end Decimal
end RecordQuery
