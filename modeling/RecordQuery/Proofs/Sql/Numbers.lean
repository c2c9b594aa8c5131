import RecordQuery.Proofs.Number.Numeral
import RecordQuery.Proofs.Sql.Spelled

namespace RecordQuery.Sql

/-- What a text is written as in a comparison with a field. -/
def printed (field : Field) (t : Text) : Except RenderError Text :=
  (Literals.standard.literal field (.text t)).map Literal.print

section Printed

variable {field : Field} (kind : field.kind = .number)
include kind

theorem printed_eq_ok_iff :
    printed field t = .ok output ↔ ∃ d, Decimal.parse? t.trim = some d ∧ d.text = output := by
  rw [printed, standard_literal, kind]
  simp only [literal?, number?, Option.map_map]
  cases Decimal.parse? t.trim with
  | none => simp
  | some d => simp [Literal.print]

/-- What is printed is printed again as it is. -/
theorem printed_printed (made : printed field t = .ok output) : printed field output = .ok output := by
  obtain ⟨d, parsed, rfl⟩ := (printed_eq_ok_iff kind).mp made
  have fits := Decimal.inInt32_of_parse? parsed
  simp only [Decimal.inInt32, Bool.and_eq_true, decide_eq_true_eq] at fits
  obtain ⟨e, again, same⟩ := Decimal.exists_parse?_text fits.1
  rw [← trim_text] at again
  exact (printed_eq_ok_iff kind).mpr ⟨e, again, same⟩

end Printed

/-- A numeral is accepted for a number if its exponents are in range. The literal of an accepted text is a
canonical numeral of the number that the text denotes and its own literal, and other texts have the same
literal exactly if they denote the same number. A text with the sign after a leading point is no numeral, but
is accepted too; the sign then takes up a decimal place. -/
theorem printed_canonical (field : Field) (kind : field.kind = .number) :
    (∀ s (n : Numeral), s.trim = n.text →
      ((∃ output, printed field s = .ok output) ↔
        Decimal.inInt32 n.exponent = true ∧ Decimal.inInt32 (n.exponent - n.places) = true)) ∧
    ∀ s output, printed field s = .ok output →
      ∃ q, (∀ p, Denotes s.trim.upright p ↔ p = q) ∧
        ((∃ p, Denotes s.trim p) ↔ s.trim.upright = s.trim) ∧
        (∃ n : Numeral, n.IsCanonical ∧ n.text = output ∧ n.value = q) ∧
        printed field output = .ok output ∧
        ∀ t other, printed field t = .ok other → (output = other ↔ Denotes t.trim.upright q) := by
  constructor
  · intro s n shape
    simp only [printed_eq_ok_iff kind, shape, n.parse?_text]
    simp
  · intro s output made
    obtain ⟨d, parsed, rfl⟩ := (printed_eq_ok_iff kind).mp made
    have denotes := denotes_of_parse? parsed
    refine ⟨d.value, fun p => ⟨fun other => other.unique denotes, ?_⟩, ?_, d.exists_canonical,
      printed_printed kind made, ?_⟩
    · rintro rfl
      exact denotes
    · constructor
      · rintro ⟨_, n, shape, -⟩
        rw [← shape, n.upright_text]
      · intro same
        exact ⟨d.value, same ▸ denotes⟩
    · intro t other written
      obtain ⟨e, read, rfl⟩ := (printed_eq_ok_iff kind).mp written
      have meant := denotes_of_parse? read
      rw [Decimal.text_eq_text_iff]
      constructor
      · intro same
        rwa [same]
      · exact fun same => same.unique meant

def heightField : Field := { name := "height", column := "height", kind := .number }

/-- One and a half, times a power of ten. -/
def oneAndHalf (digits : Text) (isDigit : digits.all Text.isDigit = true) (filled : digits ≠ []) : Numeral where
  sign := .plus
  whole := "01"
  fraction := some "50"
  power := some ⟨Text.ascii 'e', .absent, digits, rfl, List.all_eq_true.mp isDigit, filled⟩
  isDigit := List.all_eq_true.mp (by decide)
  filled := by decide

theorem heights_printed :
    Denotes "+01.50e1" 15 ∧ printed heightField " +01.50e1 " = .ok "15" ∧
      (¬∃ output, printed heightField "+01.50e2147483648" = .ok output) ∧
      (∃ n : Numeral, n.IsCanonical ∧ n.text = "15" ∧ n.value = 15) ∧
      printed heightField "15" = .ok "15" ∧
      ∀ t other, printed heightField t = .ok other →
        (Text.ofString "15" = other ↔ Denotes t.trim.upright 15) := by
  let fifteen := oneAndHalf "1" (by decide) (by decide)
  let huge := oneAndHalf "2147483648" (by decide) (by decide)
  have texts : Text.trim " +01.50e1 " = fifteen.text ∧ Text.trim "+01.50e2147483648" = huge.text := by
    decide +kernel
  have denoted : Denotes "+01.50e1" 15 := by
    have digits : fifteen.coefficient = 150 ∧ fifteen.exponent - fifteen.places = -1 := by decide +kernel
    refine ⟨fifteen, rfl, ?_⟩
    rw [Numeral.value_eq, digits.1, digits.2]
    norm_num [Decimal.value]
  have made : printed heightField " +01.50e1 " = .ok "15" :=
    (printed_eq_ok_iff rfl).mpr ⟨⟨150, -1⟩, by decide +kernel, by decide +kernel⟩
  obtain ⟨accepted, canonical⟩ := printed_canonical heightField rfl
  have refused : ¬(Decimal.inInt32 huge.exponent = true ∧
      Decimal.inInt32 (huge.exponent - huge.places) = true) := by
    decide +kernel
  obtain ⟨q, only, -, shape, again, others⟩ := canonical _ _ made
  rw [texts.1, fifteen.upright_text] at only
  obtain rfl := (only 15).mp denoted
  exact ⟨denoted, made, fun printed => refused ((accepted _ huge texts.2).mp printed), shape, again, others⟩

/-- A text that is no numeral is accepted, and gets the literal of a number that has other digits. -/
theorem heights_misprinted : printed heightField ".-5" = .ok "-0.05" ∧ ¬∃ q, Denotes ".-5" q := by
  constructor
  · exact (printed_eq_ok_iff rfl).mpr ⟨⟨-5, -2⟩, by decide +kernel, by decide +kernel⟩
  · rintro ⟨_, n, shape, -⟩
    have moved := n.upright_text
    rw [shape] at moved
    exact absurd moved (by decide)

end RecordQuery.Sql
