import RecordQuery.Text

/-! Whole numbers as settings write them: with an optional sign, an optional prefix for the base, and
underscores between digits. -/
namespace RecordQuery.Integer

private def digit? (b : UInt8) : Option Nat :=
  let c := Char.ofNat b.toNat
  if '0' ≤ c ∧ c ≤ '9' then some (c.toNat - 48)
  else if 'a' ≤ c ∧ c ≤ 'z' then some (c.toNat - 87)
  else if 'A' ≤ c ∧ c ≤ 'Z' then some (c.toNat - 55)
  else none

private def isUnderscore (b : UInt8) : Bool := b == Text.ascii '_'

/-- The value of digits of a base, underscores apart. -/
def value? (base : Nat) (digits : Text) : Option Nat :=
  (digits.filter (!isUnderscore ·)).foldlM (fun n b => do
    let d ← digit? b
    if d < base then some (base * n + d) else none) 0

/-- Whether every underscore has a digit on both sides; `after` tells whether one comes before. -/
def separated (after : Bool) : Text → Bool
  | [] => true
  | b :: rest =>
    if isUnderscore b then after && rest.head?.any (!isUnderscore ·) && separated false rest
    else separated true rest

private def basePrefix? (b : UInt8) : Option Nat :=
  match Char.ofNat b.toNat with
  | 'b' | 'B' => some 2
  | 'o' | 'O' => some 8
  | 'x' | 'X' => some 16
  | _ => none

/-- A number without sign. A leading zero stands for base eight. -/
def unsigned? : Text → Option Nat
  | [] => none
  | b :: rest =>
    if b = Text.ascii '0' then
      match rest with
      | mark :: digit :: digits =>
        match basePrefix? mark with
        | some base =>
          if separated true (digit :: digits) then value? base (digit :: digits) else none
        | none => if separated true rest then value? 8 rest else none
      | _ => if separated true rest then value? 8 rest else none
    else if separated false (b :: rest) then value? 10 (b :: rest)
    else none

/-- A number that fits 64 bits with sign. -/
def parse? (t : Text) : Option Int :=
  let number : Option Int := match t with
    | [] => none
    | b :: rest =>
      if b = Text.ascii '-' then (unsigned? rest).map fun n => -(n : Int)
      else if b = Text.ascii '+' then (unsigned? rest).map Int.ofNat
      else (unsigned? t).map Int.ofNat
  number.filter fun n => -0x8000000000000000 ≤ n && n < 0x8000000000000000

end RecordQuery.Integer
