import Mathlib.Data.List.TakeWhile
import RecordQuery.Document.Read
import RecordQuery.Proofs.Json.Lexemes
import RecordQuery.Proofs.Lexing.Literal

namespace RecordQuery

namespace Text

/-- A number other than zero starts with a digit other than zero. -/
theorem ofNat_eq_cons {n : Nat} (positive : 0 < n) :
    ∃ b rest, ofNat n = b :: rest ∧ b ≠ ascii '0' := by
  induction n using Nat.strongRecOn with
  | ind n ih =>
    by_cases small : n < 10
    · have each : ∀ n < 10, 0 < n → ascii (Nat.digitChar n) ≠ ascii '0' := by decide
      refine ⟨ascii (Nat.digitChar n), [], ?_, each n small positive⟩
      rw [ofNat, Nat.toDigits_of_lt_base small, List.map_singleton]
    · obtain ⟨b, rest, shape, other⟩ := ih (n / 10) (by omega) (by omega)
      refine ⟨b, rest ++ [ascii (Nat.digitChar (n % 10))], ?_, other⟩
      rw [ofNat, Nat.toDigits_of_base_le (by decide) (by omega), List.map_append, ← ofNat, shape]
      rfl

theorem toNat?_ofNat (n : Nat) : toNat? (ofNat n) = some n := by
  have digits : (ofNat n).all isDigit = true := List.all_eq_true.mpr fun b => isDigit_of_mem_ofNat
  simp [toNat?, digits, ofNat_ne_nil, digitsValue_ofNat]

theorem toInt?_ofInt_eq (n : Int) : toInt? (ofInt n) = some n := by
  cases n with
  | ofNat n => exact toInt?_ofInt (Int.natCast_nonneg n)
  | negSucc n =>
    rw [ofInt, toInt?, if_pos rfl, toNat?_ofNat]
    rfl

end Text

namespace Json

theorem isUnsigned_ofNat (n : Nat) : isUnsigned (Text.ofNat n) = true := by
  by_cases zero : n = 0
  · subst zero
    decide
  · obtain ⟨b, rest, shape, other⟩ := Text.ofNat_eq_cons (Nat.pos_of_ne_zero zero)
    have digits : ∀ c ∈ b :: rest, Text.isDigit c = true := fun c member =>
      Text.isDigit_of_mem_ofNat (shape ▸ member)
    have all : (b :: rest).takeWhile Text.isDigit = b :: rest := List.takeWhile_eq_self_iff.mpr digits
    have consumed : (b :: rest).dropWhile Text.isDigit = [] := List.dropWhile_eq_nil_iff.mpr digits
    rw [shape, isUnsigned]
    simp only [beq_iff_eq, other, ↓reduceIte]
    rw [digitsThen, all, consumed]
    rfl

theorem isNumber_ofInt (n : Int) : isNumber (Text.ofInt n) = true := by
  cases n with
  | ofNat n =>
    have unsigned := isUnsigned_ofNat n
    rw [Text.ofInt]
    cases shape : Text.ofNat n with
    | nil => exact absurd shape (Text.ofNat_ne_nil n)
    | cons b rest =>
      have digit : Text.isDigit b = true := Text.isDigit_of_mem_ofNat (shape ▸ List.mem_cons_self)
      have unsign : b ≠ Text.ascii '-' := by
        rintro rfl
        cases digit
      rw [isNumber]
      simp only [beq_iff_eq, unsign, ↓reduceIte]
      exact shape ▸ unsigned
  | negSucc n => exact isUnsigned_ofNat (n + 1)

theorem writable_ofInt (n : Int) : (number (Text.ofInt n)).Writable := by
  have digit : ∀ {n b}, b ∈ Text.ofNat n → isWordByte b = true := by
    intro n b member
    simp [isWordByte, Text.isDigit_of_mem_ofNat member]
  refine ⟨isNumber_ofInt n, ?_⟩
  cases n with
  | ofNat n => exact fun b => digit
  | negSucc n => exact List.forall_mem_cons.mpr ⟨by decide, fun b => digit⟩

end Json

theorem Document.int64?_ofInt {n : Int} (low : -0x8000000000000000 ≤ n) (high : n < 0x8000000000000000) :
    Document.int64? (Text.ofInt n) = some n := by
  have fits : (decide (-0x8000000000000000 ≤ n) && decide (n < 0x8000000000000000)) = true := by
    rw [decide_eq_true low, decide_eq_true high]
    rfl
  rw [int64?, Text.toInt?_ofInt_eq]
  exact if_pos fits

end RecordQuery
