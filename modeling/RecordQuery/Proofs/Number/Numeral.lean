import Mathlib.Algebra.Field.Rat
import Mathlib.Data.List.Induction
import Mathlib.Data.Nat.Digits.Defs
import Mathlib.Tactic.FieldSimp
import Mathlib.Tactic.Ring
import RecordQuery.Proofs.Number.Decimal

/-! Decimal notation: what numerals look like, and the rational numbers that they denote. A text is read as a
number if it is a numeral; there is one other form, with the sign after the point. -/
namespace RecordQuery

open Text (ascii)

inductive Sign where
  | absent
  | plus
  | minus
  deriving DecidableEq, Repr

namespace Sign

def text : Sign → Text
  | absent => []
  | plus => [ascii '+']
  | minus => [ascii '-']

def unit : Sign → Int
  | minus => -1
  | _ => 1

end Sign

/-- The number that digits write, the last of them counting ones. -/
def Text.positional (digits : Text) : Nat := Nat.ofDigits 10 (digits.reverse.map digitValue)

/-- Digits with at most one point before, among or after them, perhaps after a sign. -/
structure Mantissa where
  sign : Sign
  whole : Text
  /-- What follows the point, if there is one. -/
  fraction : Option Text
  isDigit : ∀ b ∈ whole ++ fraction.getD [], Text.isDigit b = true
  filled : whole ++ fraction.getD [] ≠ []

/-- A power of ten by which a number is multiplied. -/
structure Power where
  mark : UInt8
  sign : Sign
  digits : Text
  isMark : Decimal.isExponentMark mark = true
  isDigit : ∀ b ∈ digits, Text.isDigit b = true
  filled : digits ≠ []

structure Numeral extends Mantissa where
  power : Option Power

def Power.text (power : Power) : Text := power.mark :: (power.sign.text ++ power.digits)

def Power.value (power : Power) : Int := power.sign.unit * power.digits.positional

namespace Mantissa

def text (m : Mantissa) : Text := m.sign.text ++ (m.whole ++ m.fraction.elim [] (ascii '.' :: ·))

def places (m : Mantissa) : Nat := (m.fraction.getD []).length

def value (m : Mantissa) : ℚ :=
  m.sign.unit * (m.whole.positional + (m.fraction.getD []).positional / 10 ^ m.places)

/-- All digits as one number, the point left out. -/
def coefficient (m : Mantissa) : Int := m.sign.unit * (m.whole ++ m.fraction.getD []).positional

end Mantissa

namespace Numeral

def text (n : Numeral) : Text := n.toMantissa.text ++ n.power.elim [] Power.text

def exponent (n : Numeral) : Int := n.power.elim 0 Power.value

def value (n : Numeral) : ℚ := n.toMantissa.value * 10 ^ n.exponent

end Numeral

/-- A text is a numeral of the number. -/
def Denotes (t : Text) (q : ℚ) : Prop := ∃ n : Numeral, n.text = t ∧ n.value = q

/-- The number `coefficient * 10 ^ exponent`. -/
def Decimal.value (d : Decimal) : ℚ := d.coefficient * 10 ^ d.exponent

section Values

namespace Text

theorem positional_eq (digits : Text) : digits.positional = digitsValue digits := by
  induction digits using List.reverseRecOn with
  | nil => rfl
  | append_singleton digits b ih =>
    have last : digitsValue (digits ++ [b]) = 10 * digitsValue digits + digitValue b := List.foldl_concat ..
    rw [last, ← ih, positional, List.reverse_concat, List.map_cons, Nat.ofDigits_cons, ← positional]
    exact Nat.add_comm _ _

theorem positional_append (front back : Text) :
    positional (front ++ back) = front.positional * 10 ^ back.length + back.positional := by
  rw [positional, List.reverse_append, List.map_append, Nat.ofDigits_append, List.length_map, List.length_reverse,
    ← positional, ← positional, Nat.add_comm, Nat.mul_comm]

theorem positional_zero_cons (digits : Text) : positional (ascii '0' :: digits) = digits.positional := by
  have zero : positional [ascii '0'] = 0 := rfl
  rw [← List.singleton_append, positional_append, zero, Nat.zero_mul, Nat.zero_add]

end Text

theorem Mantissa.value_eq (m : Mantissa) : m.value = m.coefficient / 10 ^ m.places := by
  rw [value, coefficient, Text.positional_append, ← places]
  push_cast
  field_simp

theorem Numeral.value_eq (n : Numeral) :
    n.value = Decimal.value ⟨n.coefficient, n.exponent - n.places⟩ := by
  rw [value, Decimal.value, Mantissa.value_eq, zpow_sub₀ (by norm_num), zpow_natCast]
  ring

end Values

section Signs

theorem toInt?_sign_text (sign : Sign) {digits : Text} (isDigit : ∀ b ∈ digits, Text.isDigit b = true)
    (filled : digits ≠ []) :
    Text.toInt? (sign.text ++ digits) = some (sign.unit * digits.positional) := by
  have read : Text.toNat? digits = some digits.positional := by
    rw [Text.toNat?, List.isEmpty_eq_false_iff.mpr filled, List.all_eq_true.mpr isDigit, Text.positional_eq]
    rfl
  cases sign with
  | absent => exact (Text.toInt?_of_toNat? read).trans (by simp [Sign.unit])
  | plus =>
    change Text.toInt? (ascii '+' :: digits) = _
    rw [Text.toInt?, if_neg (by decide), if_pos rfl, read]
    simp [Sign.unit]
  | minus =>
    change Text.toInt? (ascii '-' :: digits) = _
    rw [Text.toInt?, if_pos rfl, read]
    simp [Sign.unit]

theorem exists_of_toNat? (read : Text.toNat? digits = some n) :
    (∀ b ∈ digits, Text.isDigit b = true) ∧ digits ≠ [] ∧ n = digits.positional := by
  simp only [Text.toNat?, Bool.or_eq_true, Bool.not_eq_true', Option.ite_none_left_eq_some, not_or,
    Bool.not_eq_true, Bool.not_eq_false, List.isEmpty_eq_false_iff, List.all_eq_true, Option.some.injEq] at read
  exact ⟨read.1.2, read.1.1, by rw [Text.positional_eq, read.2]⟩

theorem exists_of_toInt? (read : Text.toInt? t = some n) :
    ∃ (sign : Sign) (digits : Text), t = sign.text ++ digits ∧ (∀ b ∈ digits, Text.isDigit b = true) ∧
      digits ≠ [] ∧ n = sign.unit * digits.positional := by
  cases t with
  | nil => cases read
  | cons b rest =>
    rw [Text.toInt?] at read
    split at read
    · rename_i minus
      obtain ⟨_, bound, rfl⟩ := Option.map_eq_some_iff.mp read
      obtain ⟨m, value, same⟩ := Option.bind_eq_some_iff.mp bound
      cases same
      obtain ⟨isDigit, filled, rfl⟩ := exists_of_toNat? value
      exact ⟨.minus, rest, by rw [minus]; rfl, isDigit, filled, by simp [Sign.unit]⟩
    split at read
    · rename_i plus
      obtain ⟨m, value, rfl⟩ := Option.map_eq_some_iff.mp read
      obtain ⟨isDigit, filled, rfl⟩ := exists_of_toNat? value
      exact ⟨.plus, rest, by rw [plus]; rfl, isDigit, filled, by simp [Sign.unit]⟩
    · obtain ⟨m, value, rfl⟩ := Option.map_eq_some_iff.mp read
      obtain ⟨isDigit, filled, rfl⟩ := exists_of_toNat? value
      exact ⟨.absent, b :: rest, rfl, isDigit, filled, by simp [Sign.unit]⟩

end Signs

section Texts

theorem Mantissa.mantissa?_text (m : Mantissa) : Decimal.mantissa? m.text = some (m.coefficient, m.places) := by
  obtain ⟨sign, whole, fraction, isDigit, filled⟩ := m
  have digits : ascii '.' ∉ whole ++ fraction.getD [] :=
    fun member => absurd (isDigit _ member) (by decide)
  rw [List.mem_append, not_or] at digits
  have front : ascii '.' ∉ sign.text ++ whole := by
    rw [List.mem_append, not_or]
    exact ⟨by cases sign <;> decide, digits.1⟩
  have read := toInt?_sign_text sign isDigit filled
  cases fraction with
  | none =>
    simp only [Option.getD_none, List.append_nil] at read
    simp only [Decimal.mantissa?, text, Option.elim_none, List.append_nil, Text.splitOn,
      splitFirst_of_not_mem front, read]
    simp [coefficient, places]
  | some fraction =>
    have back : ascii '.' ∉ fraction := digits.2
    rw [Option.getD_some, ← List.append_assoc] at read
    simp only [Decimal.mantissa?, text, Option.elim_some, ← List.append_assoc, Text.splitOn,
      splitFirst_append front, splitFirst_of_not_mem back, read]
    rfl

theorem Mantissa.unmarked (m : Mantissa) : ∀ b ∈ m.text, (!Decimal.isExponentMark b) = true := by
  intro b member
  by_contra marked
  replace marked : b = ascii 'e' ∨ b = ascii 'E' := by
    simpa [Decimal.isExponentMark, or_iff_not_imp_left] using marked
  have other : b ≠ ascii '.' ∧ b ∉ m.sign.text ∧ Text.isDigit b = false := by
    rcases marked with rfl | rfl <;> cases m.sign <;> decide
  have undigit : b ∉ m.whole ++ m.fraction.getD [] := by
    intro digit
    rw [m.isDigit b digit] at other
    cases other.2.2
  rw [List.mem_append, not_or] at undigit
  cases shape : m.fraction with
  | none => simp [text, shape, other.2.1, undigit.1] at member
  | some fraction =>
    rw [shape] at undigit
    have back : b ∉ fraction := undigit.2
    simp [text, shape, other.1, other.2.1, undigit.1, back] at member

theorem Numeral.takeWhile_text (n : Numeral) :
    n.text.takeWhile (!Decimal.isExponentMark ·) = n.toMantissa.text := by
  rw [text, List.takeWhile_append_of_pos n.toMantissa.unmarked]
  cases n.power with
  | none => exact List.append_nil _
  | some power => simp [Power.text, power.isMark]

theorem Numeral.dropWhile_text (n : Numeral) :
    n.text.dropWhile (!Decimal.isExponentMark ·) = n.power.elim [] Power.text := by
  rw [text, List.dropWhile_append_of_pos n.toMantissa.unmarked]
  cases n.power with
  | none => rfl
  | some power => simp [Power.text, power.isMark]

theorem Power.toInt?_text (power : Power) :
    Text.toInt? (power.sign.text ++ power.digits) = some power.value :=
  toInt?_sign_text power.sign power.isDigit power.filled

theorem Numeral.exponentPart?_text (n : Numeral) :
    Decimal.exponentPart? n.text = (some n.exponent).filter Decimal.inInt32 := by
  rw [Decimal.exponentPart?, dropWhile_text, exponent]
  cases n.power with
  | none => rfl
  | some power =>
    change (Text.toInt? (power.sign.text ++ power.digits)).filter _ = _
    rw [power.toInt?_text]
    rfl

/-- A numeral is read as its digits with the place of the last, unless an exponent is out of range. -/
theorem Numeral.parse?_text (n : Numeral) :
    Decimal.parse? n.text =
      if Decimal.inInt32 n.exponent && Decimal.inInt32 (n.exponent - n.places) then
        some ⟨n.coefficient, n.exponent - n.places⟩
      else none := by
  rw [Decimal.parse?, exponentPart?_text, takeWhile_text, Mantissa.mantissa?_text]
  by_cases fits : Decimal.inInt32 n.exponent = true <;> simp [Option.filter, fits]

theorem Numeral.exponent_eq_of_text_eq {n o : Numeral} (same : n.text = o.text) : n.exponent = o.exponent := by
  have powers : n.power.elim [] Power.text = o.power.elim [] Power.text := by
    rw [← dropWhile_text, ← dropWhile_text, same]
  rw [exponent, exponent]
  cases left : n.power with
  | none =>
    cases right : o.power with
    | none => rfl
    | some power => simp [left, right, Power.text] at powers
  | some power =>
    cases right : o.power with
    | none => simp [left, right, Power.text] at powers
    | some other =>
      simp only [left, right, Option.elim_some, Power.text, List.cons.injEq] at powers
      have read := power.toInt?_text
      rw [powers.2, other.toInt?_text] at read
      exact (Option.some.inj read).symm

/-- A numeral denotes one number. -/
theorem Denotes.unique (first : Denotes t q) (second : Denotes t r) : q = r := by
  obtain ⟨n, rfl, rfl⟩ := first
  obtain ⟨o, same, rfl⟩ := second
  have mantissas : n.toMantissa.text = o.toMantissa.text := by
    rw [← Numeral.takeWhile_text, ← Numeral.takeWhile_text, same]
  have read := n.toMantissa.mantissa?_text
  rw [mantissas, Mantissa.mantissa?_text, Option.some.injEq, Prod.mk.injEq] at read
  rw [Numeral.value_eq, Numeral.value_eq, Numeral.exponent_eq_of_text_eq same, read.1, read.2]

end Texts

/-- A sign that follows a point at the start is moved before it, and the place that it took is filled. -/
def Text.upright : Text → Text
  | b :: sign :: rest =>
    if b = ascii '.' ∧ Lexer.isSign sign = true then sign :: ascii '.' :: ascii '0' :: rest
    else b :: sign :: rest
  | t => t

section Upright

theorem isSign_of_isDigit {b : UInt8} (digit : Text.isDigit b = true) : Lexer.isSign b = false := by
  by_contra sign
  rw [Bool.not_eq_false, Lexer.isSign, Bool.or_eq_true, beq_iff_eq, beq_iff_eq] at sign
  rcases sign with rfl | rfl <;> cases digit

/-- The sign of a numeral comes first. -/
theorem Mantissa.upright_text_append (m : Mantissa) (tail : Text) :
    Text.upright (m.text ++ tail) = m.text ++ tail := by
  obtain ⟨sign, whole, fraction, isDigit, filled⟩ := m
  have first (b : UInt8) (rest : Text) (other : b ≠ ascii '.') : Text.upright (b :: rest) = b :: rest := by
    cases rest with
    | nil => rfl
    | cons next rest => rw [Text.upright, if_neg fun point => other point.1]
  cases sign with
  | plus => exact first _ _ (by decide)
  | minus => exact first _ _ (by decide)
  | absent =>
    cases whole with
    | cons b whole =>
      refine first b _ ?_
      rintro rfl
      exact absurd (isDigit _ (.head _)) (by decide)
    | nil =>
      cases fraction with
      | none => exact absurd rfl filled
      | some fraction =>
        cases fraction with
        | nil => exact absurd rfl filled
        | cons b fraction =>
          change Text.upright (ascii '.' :: b :: (fraction ++ tail)) = ascii '.' :: b :: (fraction ++ tail)
          rw [Text.upright, if_neg]
          rintro ⟨-, sign⟩
          rw [isSign_of_isDigit (isDigit b (.head _))] at sign
          cases sign

theorem Numeral.upright_text (n : Numeral) : n.text.upright = n.text := n.toMantissa.upright_text_append _

/-- Digits around a point have the sign before them all, or right after a point that nothing precedes. -/
theorem sign_cases {sign : Sign} {whole fraction digits : Text}
    (shape : whole ++ fraction = sign.text ++ digits) :
    (∃ front, whole = sign.text ++ front ∧ front ++ fraction = digits) ∨
      whole = [] ∧ fraction = sign.text ++ digits ∧ sign ≠ .absent := by
  cases sign with
  | absent => exact .inl ⟨whole, rfl, shape⟩
  | _ =>
    cases whole with
    | nil => exact .inr ⟨rfl, shape, by decide⟩
    | cons b front =>
      obtain ⟨rfl, same⟩ := List.cons.inj shape
      exact .inl ⟨front, rfl, same⟩

theorem upright_of_late {sign : Sign} (signed : sign ≠ .absent) (rest : Text) :
    Text.upright (ascii '.' :: (sign.text ++ rest)) = sign.text ++ ascii '.' :: ascii '0' :: rest := by
  cases sign with
  | absent => exact absurd rfl signed
  | _ => rfl

theorem exists_mantissa_of_point {whole fraction : Text}
    (read : Text.toInt? (whole ++ fraction) = some coefficient) :
    ∃ m : Mantissa, (∀ tail, Text.upright (whole ++ ascii '.' :: fraction ++ tail) = m.text ++ tail) ∧
      m.coefficient = coefficient ∧ m.places = fraction.length := by
  obtain ⟨sign, digits, shape, isDigit, filled, rfl⟩ := exists_of_toInt? read
  rcases sign_cases shape with ⟨front, rfl, rfl⟩ | ⟨rfl, rfl, signed⟩
  · let m : Mantissa := ⟨sign, front, some fraction, isDigit, filled⟩
    refine ⟨m, fun tail => ?_, rfl, rfl⟩
    rw [List.append_assoc sign.text]
    exact m.upright_text_append tail
  · -- The zero stands where the sign was, so that the places are the same.
    have padded : ∀ b ∈ ascii '0' :: digits, Text.isDigit b = true :=
      List.forall_mem_cons.mpr ⟨by decide, isDigit⟩
    refine ⟨⟨sign, [], some (ascii '0' :: digits), padded, List.cons_ne_nil _ _⟩, ?_, ?_, ?_⟩
    · intro tail
      rw [List.nil_append, List.cons_append, List.append_assoc, upright_of_late signed]
      simp [Mantissa.text]
    · simp [Mantissa.coefficient, Text.positional_zero_cons]
    · cases sign with
      | absent => exact absurd rfl signed
      | _ => rfl

/-- What is read as a mantissa is one, up to the place of the sign. -/
theorem exists_mantissa (read : Decimal.mantissa? t = some (coefficient, places)) :
    ∃ m : Mantissa, (∀ tail, Text.upright (t ++ tail) = m.text ++ tail) ∧ m.coefficient = coefficient ∧
      m.places = places := by
  have joined := Schema.join_splitFirst t
  rw [Decimal.mantissa?, Text.splitOn] at read
  generalize Text.splitFirst (ascii '.') t = parts at read joined
  obtain ⟨whole, rest⟩ := parts
  cases rest with
  | nil =>
    obtain ⟨_, value, same⟩ := Option.map_eq_some_iff.mp read
    cases same
    obtain ⟨sign, digits, rfl, isDigit, filled, rfl⟩ := exists_of_toInt? value
    let m : Mantissa := ⟨sign, digits, none, by simpa using isDigit, by simpa using filled⟩
    refine ⟨m, fun tail => ?_, by simp [m, Mantissa.coefficient], rfl⟩
    have whole : t = m.text := by simpa [m, Mantissa.text, Text.join] using joined.symm
    rw [whole, m.upright_text_append]
  | cons fraction others =>
    cases others with
    | cons => cases read
    | nil =>
      obtain ⟨_, value, same⟩ := Option.map_eq_some_iff.mp read
      cases same
      have pointed : t = whole ++ ascii '.' :: fraction := by
        simp only [← joined, Text.join, List.intercalate_cons_cons, List.intercalate_singleton]
        rw [List.append_assoc]
        rfl
      rw [pointed]
      exact exists_mantissa_of_point value

/-- An exponent that is read is that of a power of ten, or there is none. -/
theorem exists_power (read : Decimal.exponentPart? t = some exponent) :
    ∃ power : Option Power, t.dropWhile (!Decimal.isExponentMark ·) = power.elim [] Power.text ∧
      power.elim 0 Power.value = exponent := by
  rw [Decimal.exponentPart?] at read
  split at read
  · rename_i missing
    exact ⟨none, missing, Option.some.inj read⟩
  · rename_i mark digits shape
    obtain ⟨value, -⟩ := Option.filter_eq_some_iff.mp read
    obtain ⟨sign, digits, rfl, isDigit, filled, rfl⟩ := exists_of_toInt? value
    have isMark : Decimal.isExponentMark mark = true := by
      have head := List.head?_dropWhile_not (!Decimal.isExponentMark ·) t
      rw [shape] at head
      simpa using head
    exact ⟨some ⟨mark, sign, digits, isMark, isDigit, filled⟩, shape, rfl⟩

/-- Whatever is read is a numeral, up to the place of the sign, and has its value. -/
theorem denotes_of_parse? (read : Decimal.parse? t = some d) : Denotes t.upright d.value := by
  simp only [Decimal.parse?, Option.bind_eq_bind, Option.bind_eq_some_iff] at read
  obtain ⟨exponent, scaled, ⟨coefficient, places⟩, digits, read⟩ := read
  obtain ⟨m, text, rfl, rfl⟩ := exists_mantissa digits
  obtain ⟨power, marked, rfl⟩ := exists_power scaled
  split at read
  · cases read
    refine ⟨⟨m, power⟩, ?_, Numeral.value_eq _⟩
    rw [Numeral.text, ← marked, ← text, List.takeWhile_append_dropWhile]
  · cases read

end Upright

section Canonical

/-- A minus or no sign, digits, and perhaps a point with digits that do not end in a zero. -/
structure Numeral.IsCanonical (n : Numeral) : Prop where
  sign : n.sign ≠ .plus
  whole : n.whole ≠ []
  fraction : ∀ digits ∈ n.fraction, digits ≠ [] ∧ digits.getLast? ≠ some (ascii '0')
  power : n.power = none

namespace Decimal

theorem value_ten_mul (coefficient exponent : Int) :
    value ⟨10 * coefficient, exponent - 1⟩ = value ⟨coefficient, exponent⟩ := by
  simp only [value, zpow_sub_one₀ (show (10 : ℚ) ≠ 0 by norm_num), Int.cast_mul, Int.cast_ofNat]
  field_simp

theorem exists_sign (n : Int) : ∃ s : Sign, s ≠ .plus ∧ s.text = sign n ∧ s.unit * n.natAbs = n := by
  by_cases negative : n < 0
  · refine ⟨.minus, by decide, by rw [sign, if_pos negative]; rfl, ?_⟩
    change -1 * (n.natAbs : Int) = n
    omega
  · refine ⟨.absent, by decide, by rw [sign, if_neg negative]; rfl, ?_⟩
    change 1 * (n.natAbs : Int) = n
    omega

/-- The digits of a number, with zeros before them and a point among them, are a numeral. -/
theorem exists_numeral {n : Int} {whole : Text} {fraction : Option Text} (zeros : Nat)
    (joined : whole ++ fraction.getD [] = List.replicate zeros (ascii '0') ++ Text.ofNat n.natAbs) :
    ∃ numeral : Numeral, numeral.sign ≠ .plus ∧ numeral.whole = whole ∧ numeral.fraction = fraction ∧
      numeral.power = none ∧ numeral.text = sign n ++ (whole ++ fraction.elim [] (ascii '.' :: ·)) ∧
      numeral.value = value ⟨n, -(fraction.getD []).length⟩ := by
  obtain ⟨s, unsigned, same, unit⟩ := exists_sign n
  have isDigit : ∀ b ∈ whole ++ fraction.getD [], Text.isDigit b = true := by
    rw [joined]
    intro b member
    rcases List.mem_append.mp member with zero | digit
    · rw [List.eq_of_mem_replicate zero]
      decide
    · exact Text.isDigit_of_mem_ofNat digit
  have filled : whole ++ fraction.getD [] ≠ [] := by
    rw [joined]
    exact List.append_ne_nil_of_right_ne_nil _ (Text.ofNat_ne_nil _)
  let numeral : Numeral := ⟨⟨s, whole, fraction, isDigit, filled⟩, none⟩
  refine ⟨numeral, unsigned, rfl, rfl, rfl, ?_, ?_⟩
  · rw [← same]
    exact List.append_nil _
  · have read : numeral.coefficient = n := by
      rw [Mantissa.coefficient, joined, Text.positional_eq, Text.digitsValue_zeros_append, Text.digitsValue_ofNat]
      exact unit
    rw [Numeral.value_eq, read]
    exact congrArg (fun exponent => value ⟨n, exponent⟩) (Int.zero_sub _)

/-- The text of a decimal is a canonical numeral of its value. -/
theorem exists_canonical (d : Decimal) :
    ∃ n : Numeral, n.IsCanonical ∧ n.text = d.text ∧ n.value = d.value := by
  induction d using induction_on_point with
  | whole n =>
    have joined : Text.ofNat n.natAbs ++ (none : Option Text).getD [] =
        List.replicate 0 (ascii '0') ++ Text.ofNat n.natAbs := List.append_nil _
    obtain ⟨numeral, sign, whole, fraction, power, written, value⟩ := exists_numeral 0 joined
    refine ⟨numeral, ⟨sign, whole ▸ Text.ofNat_ne_nil _, by simp [fraction], power⟩, ?_, value⟩
    rw [written, text_ofInt]
    simp
  | rough n places rough =>
    obtain ⟨whole, fraction, zeros, text, length, filled, last, joined⟩ := exists_text_of_rough rough places
    have fractional : fraction ≠ [] := List.ne_nil_of_length_eq_add_one length
    have shape : whole ++ (some fraction).getD [] =
        List.replicate zeros (ascii '0') ++ Text.ofNat n.natAbs := joined
    obtain ⟨numeral, sign, front, back, power, written, value⟩ := exists_numeral zeros shape
    refine ⟨numeral, ⟨sign, front ▸ filled, by simp [back, fractional, last], power⟩, ?_, ?_⟩
    · rw [written, text, List.append_assoc]
      rfl
    · rw [value, Option.getD_some, length]
  | left coefficient exponent _ ih => rwa [text_ten_mul, value_ten_mul] at ih
  | right coefficient exponent _ ih => rwa [text_ten_mul, value_ten_mul]

/-- A decimal can be given with any smaller exponent. -/
theorem exists_shifted {d : Decimal} {exponent : Int} (below : exponent ≤ d.exponent) :
    ∃ coefficient, text ⟨coefficient, exponent⟩ = d.text ∧ value ⟨coefficient, exponent⟩ = d.value := by
  induction exponent, below using Int.leInductionDown with
  | base => exact ⟨d.coefficient, rfl, rfl⟩
  | pred exponent _ ih =>
    obtain ⟨coefficient, written, value⟩ := ih
    exact ⟨10 * coefficient, by rw [text_ten_mul, written], by rw [value_ten_mul, value]⟩

/-- Decimals are written the same way exactly if they are the same number. -/
theorem text_eq_text_iff (d e : Decimal) : d.text = e.text ↔ d.value = e.value := by
  constructor
  · intro same
    obtain ⟨n, -, written, value⟩ := d.exists_canonical
    obtain ⟨o, -, other, equal⟩ := e.exists_canonical
    exact Denotes.unique ⟨n, written, value⟩ ⟨o, other.trans same.symm, equal⟩
  · intro same
    -- Both are moved to the smaller exponent, where their digits must agree.
    obtain ⟨c, written, value⟩ := exists_shifted (min_le_left d.exponent e.exponent)
    obtain ⟨k, other, equal⟩ := exists_shifted (min_le_right d.exponent e.exponent)
    have digits : c = k := by
      have scaled := value.trans (same.trans equal.symm)
      simpa [Decimal.value, zpow_ne_zero] using scaled
    rw [← written, ← other, digits]

end Decimal
end Canonical

end RecordQuery
