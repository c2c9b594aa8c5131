import RecordQuery.Number.Decimal
import RecordQuery.Proofs.Json.Numbers
import RecordQuery.Proofs.Schema.Naming
import RecordQuery.Proofs.Sql.Scanning

namespace RecordQuery

namespace Text

theorem ofNat_ten_mul {n : Nat} (positive : 0 < n) : ofNat (10 * n) = ofNat n ++ [ascii '0'] := by
  have whole : 10 * n / 10 = n := by omega
  have last : 10 * n % 10 = 0 := by omega
  rw [ofNat, Nat.toDigits_of_base_le (by decide) (by omega), List.map_append, whole, last]
  rfl

/-- The last digit of a number that ten does not divide is not zero. -/
theorem ofNat_eq_concat {n : Nat} (rough : n % 10 ≠ 0) :
    ∃ digits b, ofNat n = digits ++ [b] ∧ b ≠ ascii '0' := by
  have each : ∀ n < 10, n ≠ 0 → ascii (Nat.digitChar n) ≠ ascii '0' := by decide
  have other := each (n % 10) (by omega) rough
  by_cases small : n < 10
  · refine ⟨[], ascii (Nat.digitChar (n % 10)), ?_, other⟩
    rw [ofNat, Nat.toDigits_of_lt_base small, Nat.mod_eq_of_lt small]
    rfl
  · refine ⟨ofNat (n / 10), ascii (Nat.digitChar (n % 10)), ?_, other⟩
    rw [ofNat, Nat.toDigits_of_base_le (by decide) (by omega), List.map_append, ← ofNat]
    rfl

theorem digitsValue_zeros_append (zeros : Nat) (digits : Text) :
    digitsValue (List.replicate zeros (ascii '0') ++ digits) = digitsValue digits := by
  induction zeros with
  | zero => rfl
  | succ zeros ih =>
    rw [List.replicate_succ, List.cons_append]
    exact ih

theorem toNat?_zeros_append (zeros n : Nat) :
    toNat? (List.replicate zeros (ascii '0') ++ ofNat n) = some n := by
  have digits : ∀ b ∈ List.replicate zeros (ascii '0') ++ ofNat n, isDigit b = true := by
    intro b member
    rcases List.mem_append.mp member with zero | digit
    · rw [List.eq_of_mem_replicate zero]
      decide
    · exact isDigit_of_mem_ofNat digit
  have filled : List.replicate zeros (ascii '0') ++ ofNat n ≠ [] :=
    List.append_ne_nil_of_right_ne_nil _ (ofNat_ne_nil n)
  rw [toNat?, List.all_eq_true.mpr digits, List.isEmpty_eq_false_iff.mpr filled, digitsValue_zeros_append,
    digitsValue_ofNat]
  rfl

/-- Digits are read as a number without a sign. -/
theorem toInt?_of_toNat? {t : Text} (read : toNat? t = some n) : toInt? t = some (n : Int) := by
  cases t with
  | nil => cases read
  | cons b rest =>
    have digit : isDigit b = true := by
      by_contra other
      simp [toNat?, other] at read
    have minus : b ≠ ascii '-' := fun same => absurd digit (by rw [same]; decide)
    have plus : b ≠ ascii '+' := fun same => absurd digit (by rw [same]; decide)
    rw [toInt?, if_neg minus, if_neg plus, read]
    rfl

end Text

namespace Decimal

open Text (ascii)

/-- The sign that a number is written with. -/
def sign (n : Int) : Text := if n < 0 then [ascii '-'] else []

/-- Zeros before the digits of a number leave it the same. -/
theorem toInt?_sign_append (n : Int) (zeros : Nat) :
    Text.toInt? (sign n ++ (List.replicate zeros (ascii '0') ++ Text.ofNat n.natAbs)) = some n := by
  have read := Text.toNat?_zeros_append zeros n.natAbs
  by_cases negative : n < 0
  · rw [sign, if_pos negative, List.singleton_append, Text.toInt?, if_pos rfl, read]
    have same : -(n.natAbs : Int) = n := by omega
    exact congrArg some same
  · rw [sign, if_neg negative, List.nil_append, Text.toInt?_of_toNat? read]
    exact congrArg some (by omega)

section WithPoint

theorem trimZeros_concat_zero (digits : Text) : trimZeros (digits ++ [ascii '0']) = trimZeros digits := by
  simp [trimZeros]

theorem trimZeros_concat (digits : Text) (other : b ≠ ascii '0') :
    trimZeros (digits ++ [b]) = digits ++ [b] := by
  simp [trimZeros, other]

theorem withPoint_zero (filled : digits ≠ []) : withPoint digits 0 = digits := by
  simp [withPoint, filled, trimZeros]

/-- A zero at the end is dropped. -/
theorem withPoint_concat_zero (digits : Text) (places : Nat) :
    withPoint (digits ++ [ascii '0']) (places + 1) = withPoint digits places := by
  simp only [withPoint, List.length_append, List.length_singleton, Nat.add_sub_add_right,
    Nat.add_le_add_iff_right, List.take_append_of_le_length (Nat.sub_le _ _),
    List.drop_append_of_le_length (Nat.sub_le _ _), ← List.append_assoc, trimZeros_concat_zero]

/-- If the last digit is not zero, the point stands just before the last `places` digits. -/
theorem withPoint_concat (digits : Text) (other : b ≠ ascii '0') (places : Nat) :
    ∃ whole fraction zeros, withPoint (digits ++ [b]) (places + 1) = whole ++ ascii '.' :: fraction ∧
      fraction.length = places + 1 ∧ whole ≠ [] ∧
      whole ++ fraction = List.replicate zeros (ascii '0') ++ (digits ++ [b]) := by
  simp only [withPoint, List.length_append, List.length_singleton, Nat.add_sub_add_right,
    Nat.add_le_add_iff_right, List.take_append_of_le_length (Nat.sub_le _ _),
    List.drop_append_of_le_length (Nat.sub_le _ _), ← List.append_assoc, trimZeros_concat _ other]
  have filled (front : Text) : (front ++ [b]).isEmpty = false := by simp
  simp only [filled, Bool.false_eq_true, ↓reduceIte]
  by_cases short : digits.length ≤ places
  · refine ⟨_, _, places - digits.length + 1, rfl, ?_, by simp [short], ?_⟩
    · simp [short]
      omega
    · rw [if_pos short, Nat.sub_eq_zero_of_le short, List.drop_zero, List.replicate_succ]
      rfl
  · refine ⟨_, _, 0, rfl, ?_, ?_, ?_⟩
    · simp
      omega
    · rw [if_neg short, Ne, List.take_eq_nil_iff, not_or]
      exact ⟨by omega, fun empty => short (by simp [empty])⟩
    · simp only [if_neg short, Nat.sub_eq_zero_of_le (Nat.le_of_not_le short), List.replicate_zero,
        List.nil_append, ← List.append_assoc, List.take_append_drop]

end WithPoint

/-- The digits of a number without its sign. -/
def magnitude (d : Decimal) : Text :=
  if d.coefficient = 0 then Text.ofNat d.coefficient.natAbs
  else if 0 ≤ d.exponent then
    Text.ofNat d.coefficient.natAbs ++ List.replicate d.exponent.toNat (ascii '0')
  else withPoint (Text.ofNat d.coefficient.natAbs) d.exponent.natAbs

theorem text_eq (d : Decimal) : d.text = sign d.coefficient ++ d.magnitude := by
  rw [text, sign, ← magnitude]
  split <;> rfl

theorem magnitude_ten_mul (coefficient exponent : Int) :
    magnitude ⟨10 * coefficient, exponent - 1⟩ = magnitude ⟨coefficient, exponent⟩ := by
  by_cases zero : coefficient = 0
  · simp [magnitude, zero]
  have digits : Text.ofNat (10 * coefficient).natAbs = Text.ofNat coefficient.natAbs ++ [ascii '0'] := by
    rw [Int.natAbs_mul]
    exact Text.ofNat_ten_mul (by omega)
  rw [magnitude, magnitude, if_neg (by simpa using zero), if_neg zero]
  simp only [digits]
  rcases Int.lt_trichotomy exponent 0 with down | rfl | up
  · have more : (exponent - 1).natAbs = exponent.natAbs + 1 := by omega
    rw [if_neg (by omega), if_neg (by omega), more, withPoint_concat_zero]
  · rw [if_neg (by decide), if_pos (Int.le_refl 0)]
    change withPoint _ (0 + 1) = _ ++ []
    rw [withPoint_concat_zero, withPoint_zero (Text.ofNat_ne_nil _), List.append_nil]
  · have more : exponent.toNat = (exponent - 1).toNat + 1 := by omega
    rw [if_pos (by omega), if_pos (by omega), more, List.replicate_succ, List.append_assoc,
      List.singleton_append]

/-- Moving the point and changing the digits accordingly leaves the text the same. -/
theorem text_ten_mul (coefficient exponent : Int) :
    text ⟨10 * coefficient, exponent - 1⟩ = text ⟨coefficient, exponent⟩ := by
  have same : sign (10 * coefficient) = sign coefficient := by
    rw [sign, sign]
    exact if_congr (by omega) rfl rfl
  rw [text_eq, text_eq, same, magnitude_ten_mul]

/-- Moving the point until it stands after the last digit, or no zero stands at the end, leads from every
decimal to one of two forms. -/
theorem induction_on_point {motive : Decimal → Prop} (d : Decimal) (whole : ∀ n, motive (ofInt n))
    (rough : ∀ (n : Int) (places : Nat), n % 10 ≠ 0 → motive ⟨n, -(places + 1 : Nat)⟩)
    (left : ∀ coefficient exponent, 0 < exponent → motive ⟨10 * coefficient, exponent - 1⟩ →
      motive ⟨coefficient, exponent⟩)
    (right : ∀ coefficient exponent, exponent ≤ 0 → motive ⟨coefficient, exponent⟩ →
      motive ⟨10 * coefficient, exponent - 1⟩) : motive d := by
  obtain ⟨coefficient, exponent⟩ := d
  rcases Int.eq_nat_or_neg exponent with ⟨places, rfl | rfl⟩
  · induction places generalizing coefficient with
    | zero => exact whole coefficient
    | succ places ih =>
      refine left coefficient _ (by omega) ?_
      have moved := ih (10 * coefficient)
      rwa [show (places : Int) = (places + 1 : Nat) - 1 by omega] at moved
  · induction places generalizing coefficient with
    | zero => exact whole coefficient
    | succ places ih =>
      by_cases tens : coefficient % 10 = 0
      · obtain ⟨tenth, rfl⟩ := Int.dvd_of_emod_eq_zero tens
        have moved := right tenth _ (by omega) (ih tenth)
        rwa [show -(places : Int) - 1 = -(places + 1 : Nat) by omega] at moved
      · exact rough coefficient places tens

theorem text_ofInt (n : Int) : text (ofInt n) = sign n ++ Text.ofNat n.natAbs := by
  rw [text_eq, magnitude]
  simp [ofInt]

theorem ofInt_eq (n : Int) : Text.ofInt n = text (ofInt n) := by
  rw [text_ofInt]
  cases n with
  | ofNat n => rfl
  | negSucc n =>
    rw [sign, if_pos (Int.negSucc_lt_zero n), List.singleton_append]
    rfl

section Parse

theorem inInt32_of_parse? (read : parse? t = some d) : inInt32 d.exponent = true := by
  simp only [parse?, Option.bind_eq_bind, Option.bind_eq_some_iff] at read
  obtain ⟨exponent, -, ⟨coefficient, places⟩, -, read⟩ := read
  split at read
  · cases read
    assumption
  · cases read

theorem point_not_mem_sign (n : Int) : ascii '.' ∉ sign n := by
  rw [sign]
  split <;> decide

theorem point_not_mem_ofNat (n : Nat) : ascii '.' ∉ Text.ofNat n :=
  fun member => absurd (Text.isDigit_of_mem_ofNat member) (by decide)

/-- A numeral has no exponent. -/
theorem parse?_text {d : Decimal} {n : Int} {places : Nat} (read : mantissa? d.text = some (n, places))
    (fits : places ≤ 2147483648) : parse? d.text = some ⟨n, -places⟩ := by
  have unmarked : ∀ b ∈ d.text, (!isExponentMark b) = true := by
    intro b member
    have numeral := Sql.inNumeral_of_mem_text member
    have small : b ≠ ascii 'e' := fun same => absurd numeral (by rw [same]; decide)
    have capital : b ≠ ascii 'E' := fun same => absurd numeral (by rw [same]; decide)
    simp [isExponentMark, small, capital]
  have exponent : exponentPart? d.text = some 0 := by
    rw [exponentPart?, List.dropWhile_eq_nil_iff.mpr unmarked]
  have inside : inInt32 (-places) = true := by
    simp only [inInt32, Bool.and_eq_true, decide_eq_true_eq]
    omega
  simp only [parse?, exponent, List.takeWhile_eq_self_iff.mpr unmarked, read, Option.bind_eq_bind,
    Option.bind_some, Int.zero_sub, inside, ↓reduceIte]
  rfl

theorem parse?_text_ofInt (n : Int) : parse? (text (ofInt n)) = some (ofInt n) := by
  have whole : ascii '.' ∉ sign n ++ Text.ofNat n.natAbs := by
    simp [point_not_mem_sign, point_not_mem_ofNat]
  have read : mantissa? (text (ofInt n)) = some (n, 0) := by
    have value := toInt?_sign_append n 0
    rw [List.replicate_zero, List.nil_append] at value
    simp only [mantissa?, text_ofInt, Text.splitOn, splitFirst_of_not_mem whole, value, Option.map_some]
  exact parse?_text read (Nat.zero_le _)

/-- Without a zero at the end all digits are kept, perhaps with zeros before them. -/
theorem exists_text_of_rough {n : Int} (rough : n % 10 ≠ 0) (places : Nat) :
    ∃ whole fraction zeros, text ⟨n, -(places + 1 : Nat)⟩ = (sign n ++ whole) ++ ascii '.' :: fraction ∧
      fraction.length = places + 1 ∧ whole ≠ [] ∧ fraction.getLast? ≠ some (ascii '0') ∧
      whole ++ fraction = List.replicate zeros (ascii '0') ++ Text.ofNat n.natAbs := by
  obtain ⟨digits, last, shape, other⟩ := Text.ofNat_eq_concat (n := n.natAbs) (by omega)
  obtain ⟨whole, fraction, zeros, pointed, length, filled, joined⟩ := withPoint_concat digits other places
  have final : fraction.getLast? = some last := by
    have filled : fraction ≠ [] := List.ne_nil_of_length_eq_add_one length
    have ends := congrArg List.getLast? joined
    rwa [List.getLast?_append_of_ne_nil _ filled, ← List.append_assoc, List.getLast?_concat] at ends
  rw [← shape] at pointed joined
  refine ⟨whole, fraction, zeros, ?_, length, filled, by simpa [final] using other, joined⟩
  have nonzero : n ≠ 0 := by
    rintro rfl
    exact rough rfl
  have down : ¬ (0 : Int) ≤ -(places + 1 : Nat) := by omega
  rw [text_eq, magnitude, if_neg nonzero, if_neg down, List.append_assoc, ← pointed]
  rfl

/-- So the very same decimal is read. -/
theorem parse?_text_of_rough {n : Int} (rough : n % 10 ≠ 0) {places : Nat} (fits : places < 2147483648) :
    parse? (text ⟨n, -(places + 1 : Nat)⟩) = some ⟨n, -(places + 1 : Nat)⟩ := by
  obtain ⟨whole, fraction, zeros, written, length, -, -, joined⟩ := exists_text_of_rough rough places
  have undotted : ascii '.' ∉ whole ++ fraction := by
    rw [joined, List.mem_append, not_or]
    refine ⟨?_, point_not_mem_ofNat _⟩
    intro member
    exact absurd (List.eq_of_mem_replicate member) (by decide)
  rw [List.mem_append, not_or] at undotted
  have before : ascii '.' ∉ sign n ++ whole := by simp [point_not_mem_sign, undotted.1]
  have read : mantissa? (text ⟨n, -(places + 1 : Nat)⟩) = some (n, places + 1) := by
    simp only [mantissa?, written, Text.splitOn, splitFirst_append before, splitFirst_of_not_mem undotted.2]
    rw [List.append_assoc, joined, toInt?_sign_append, length]
    rfl
  exact parse?_text read fits

/-- The text of a number is read as a number that is written the same way. -/
theorem exists_parse?_text {d : Decimal} (fits : -2147483648 ≤ d.exponent) :
    ∃ read, parse? d.text = some read ∧ read.text = d.text := by
  induction d using induction_on_point with
  | whole n => exact ⟨_, parse?_text_ofInt n, rfl⟩
  | rough n places rough =>
    change -2147483648 ≤ -((places + 1 : Nat) : Int) at fits
    exact ⟨_, parse?_text_of_rough rough (by omega), rfl⟩
  | left coefficient exponent positive ih =>
    change -2147483648 ≤ exponent - 1 → _ at ih
    rw [text_ten_mul] at ih
    exact ih (by omega)
  | right coefficient exponent _ ih =>
    change -2147483648 ≤ exponent - 1 at fits
    change -2147483648 ≤ exponent → _ at ih
    rw [text_ten_mul]
    exact ih (by omega)

end Parse

end Decimal
end RecordQuery
