import RecordQuery.Number.Double
import RecordQuery.Number.Decimal

/-! The fewest decimal digits that read back as a given double. A double stands for an interval of
reals: everything that rounds to it. On coarser and coarser decimal grids, the first one with a point
in that interval next to the double has the digits. -/
namespace RecordQuery.Double

/-- The number `digits * 10 ^ exponent`, its digits without zeros at the end. -/
structure Digits where
  digits : Text
  exponent : Int
  deriving DecidableEq, Repr

/-- Compares `a * 10 ^ p` with `b * 2 ^ q`. -/
private def compareScaled (a : Nat) (p : Int) (b : Nat) (q : Int) : Ordering :=
  compare (a * Nat.pow 10 p.toNat * Nat.pow 2 (-q).toNat) (b * Nat.pow 2 q.toNat * Nat.pow 10 (-p).toNat)

/-- The floor of `a * 2 ^ q / 10 ^ p`. -/
private def floorAt (a : Nat) (q p : Int) : Nat :=
  (a * Nat.pow 2 q.toNat * Nat.pow 10 (-p).toNat) / (Nat.pow 2 (-q).toNat * Nat.pow 10 p.toNat)

/-- The least `e` such that `m * 2 ^ q < 10 ^ e`, for a positive `m`. -/
private def decimalSize (m : Nat) (q : Int) : Int :=
  let guess := (((Nat.log2 m : Int) + q) * 30103) / 100000
  if compareScaled 1 guess m q = .gt then guess
  else if compareScaled 1 (guess + 1) m q = .gt then guess + 1
  else guess + 2

/-- Whether a point of the grid of `10 ^ p` rounds to the double `m * 2 ^ q`. -/
private def roundsTo (m : Nat) (q : Int) (point : Nat) (p : Int) : Bool :=
  let below := if m = 0x10000000000000 ∧ -1074 < q then 4 * m - 1 else 4 * m - 2
  let aboveLow := compareScaled point p below (q - 2)
  let belowHigh := compareScaled point p (4 * m + 2) (q - 2)
  let closed := m % 2 == 0
  (aboveLow == .gt || (closed && aboveLow == .eq)) && (belowHigh == .lt || (closed && belowHigh == .eq))

/-- The point of the grid of `10 ^ p` that rounds to the double, if there is one: of two, the
nearer. -/
private def gridPoint? (m : Nat) (q p : Int) : Option Nat :=
  let low := floorAt m q p
  match roundsTo m q low p, roundsTo m q (low + 1) p with
  | true, true => some (if compareScaled (2 * low + 1) p (2 * m) q = .gt then low else low + 1)
  | true, false => some low
  | false, true => some (low + 1)
  | false, false => none

private def search (m : Nat) (q size : Int) : (remaining tried : Nat) → Nat × Int
  | 0, tried => (floorAt m q (size - tried), size - tried)
  | remaining + 1, tried =>
    match gridPoint? m q (size - tried) with
    | some point => (point, size - tried)
    | none => search m q size remaining (tried + 1)

private def stripZeros (n : Nat) (exponent : Int) : Digits :=
  let written := (Text.ofNat n).reverse
  let kept := written.dropWhile (· == Text.ascii '0')
  ⟨kept.reverse, exponent + (written.length - kept.length : Nat)⟩

/-- The shortest digits of a finite number other than zero, of either sign. -/
def shortest (x : Double) : Digits :=
  let (m, q) := x.scaled
  let (point, p) := search m q (decimalSize m q) 17 1
  stripZeros point p

private def signed (x : Double) (t : Text) : Text :=
  if x.isNegative then Text.ascii '-' :: t else t

/-- Shortest digits, never with an exponent. -/
def plain (x : Double) : Text :=
  if x.isNaN then "NaN"
  else if x.isInfinite then if x.isNegative then "-Inf" else "+Inf"
  else if x.isZero then x.signed "0"
  else
    let d := x.shortest
    x.signed (if 0 ≤ d.exponent then d.digits ++ List.replicate d.exponent.toNat (Text.ascii '0')
      else Decimal.withPoint d.digits d.exponent.natAbs)

private def exponentText (e : Int) : Text :=
  (if e < 0 then "e-" else "e+") ++ Text.ofNat e.natAbs

/-- Shortest digits; numbers below a millionth or from `10 ^ 21` on have an exponent. -/
def scientific (x : Double) : Text :=
  if x.isZero then x.signed "0"
  else
    let d := x.shortest
    let lead := d.exponent + d.digits.length - 1
    if -7 < lead ∧ lead < 21 then x.plain
    else
      match d.digits with
      | [] => x.plain
      | [first] => x.signed (first :: exponentText lead)
      | first :: rest => x.signed (first :: Text.ascii '.' :: rest ++ exponentText lead)

/-- The exact decimal of the shortest digits. -/
def toDecimal (x : Double) : Decimal :=
  if x.isZero then ⟨0, 0⟩
  else
    let d := x.shortest
    let n : Int := Text.digitsValue d.digits
    ⟨if x.isNegative then -n else n, d.exponent⟩

end RecordQuery.Double
