import RecordQuery.Json.Reader
import RecordQuery.Json.Writer
import RecordQuery.Proofs.Text.Utf8

namespace RecordQuery.Json

/-- Within a string, what is written is taken as a whole and stands for the value. -/
structure Spells (written value : Text) : Prop where
  pieces : ∃ pieces, (∀ rest, pieces? (written ++ rest) = (pieces? rest).map (pieces ++ ·)) ∧
    ∀ more, ofPieces none (pieces ++ more) = value ++ ofPieces none more
  scans : ∀ read found rest, lexFrom (.string read false) found (written ++ rest) =
    lexFrom (.string (written.reverse ++ read) false) found rest

namespace Spells

theorem nil : Spells [] [] :=
  ⟨⟨[], by simp, by simp⟩, by simp⟩

theorem append (first : Spells s a) (second : Spells t b) : Spells (s ++ t) (a ++ b) := by
  obtain ⟨⟨pieces, taken, stand⟩, scans⟩ := first
  obtain ⟨⟨others, takenToo, standToo⟩, scansToo⟩ := second
  refine ⟨⟨pieces ++ others, ?_, ?_⟩, ?_⟩
  · intro rest
    simp [taken, takenToo, Function.comp_def]
  · intro more
    simp [stand, standToo]
  · intro read found rest
    simp [scans, scansToo]

/-- A byte that needs no escape stands for itself. -/
theorem byte {b : UInt8} (visible : 0x20 ≤ b) (unquoted : b ≠ 0x22) (unescaped : b ≠ 0x5C) :
    Spells [b] [b] := by
  have bare : ¬ b < 0x20 := UInt8.not_lt.mpr visible
  refine ⟨⟨[.byte b], ?_, ?_⟩, ?_⟩
  · intro rest
    rw [List.singleton_append, pieces?.eq_def]
    simp only [unescaped, bare, ↓reduceIte]
    cases pieces? rest <;> rfl
  · intro more
    rfl
  · intro read found rest
    rw [List.singleton_append, lexFrom]
    simp [Mode.step?, unquoted, unescaped]

theorem escaped {c value : UInt8} (named : c ≠ Text.ascii 'u') (stands : escapedByte? c = some value) :
    Spells [0x5C, c] [value] := by
  refine ⟨⟨[.byte value], ?_, ?_⟩, ?_⟩
  · intro rest
    rw [List.cons_append, List.singleton_append, pieces?.eq_def]
    simp only [named, stands, ↓reduceIte]
    cases pieces? rest <;> rfl
  · intro more
    rfl
  · intro read found rest
    simp [lexFrom, Mode.step?]

theorem plain_of_hexValue? {b : UInt8} (digit : hexValue? b = some n) : b ≠ 0x22 ∧ b ≠ 0x5C := by
  constructor
  · rintro rfl
    cases digit
  · rintro rfl
    cases digit

/-- Four hexadecimal digits stand for a code point that is no surrogate. -/
theorem unit {w x y z : UInt8} {n : Nat} (digits : unitOf? w x y z = some n) (low : n < 0xD800) :
    Spells [0x5C, Text.ascii 'u', w, x, y, z] (Text.ofCode n) := by
  have single : isHigh n = false ∧ isLow n = false := by
    simp [isHigh, isLow]
    omega
  have plain : (w ≠ 0x22 ∧ w ≠ 0x5C) ∧ (x ≠ 0x22 ∧ x ≠ 0x5C) ∧ (y ≠ 0x22 ∧ y ≠ 0x5C) ∧
      (z ≠ 0x22 ∧ z ≠ 0x5C) := by
    simp only [unitOf?, Option.bind_eq_bind, Option.bind_eq_some_iff] at digits
    obtain ⟨_, first, _, second, _, third, _, fourth, -⟩ := digits
    exact ⟨plain_of_hexValue? first, plain_of_hexValue? second, plain_of_hexValue? third,
      plain_of_hexValue? fourth⟩
  refine ⟨⟨[.unit n], ?_, ?_⟩, ?_⟩
  · intro rest
    rw [pieces?.eq_def]
    simp only [List.cons_append, List.nil_append, digits, ↓reduceIte]
    cases pieces? rest <;> rfl
  · intro more
    simp [ofPieces, single, lone]
  · intro read found rest
    simp [lexFrom, Mode.step?, plain]

/-- Bytes that need no escape stand for themselves. -/
theorem bytes {t : Text} (plain : ∀ b ∈ t, 0x20 ≤ b ∧ b ≠ 0x22 ∧ b ≠ 0x5C) : Spells t t := by
  induction t with
  | nil => exact .nil
  | cons b t ih =>
    obtain ⟨visible, unquoted, unescaped⟩ := plain b (.head _)
    exact (byte visible unquoted unescaped).append (ih fun other member => plain other (.tail _ member))

end Spells

theorem hexValue?_hexDigit {n : Nat} (small : n < 16) : hexValue? (Text.hexDigit n) = some n := by
  have each : ∀ n < 16, hexValue? (Text.hexDigit n) = some n := by decide
  exact each n small

theorem spells_hex {code : Nat} (low : code < 0xD800) :
    Spells (Text.ofString "\\u" ++ Text.hex 4 code) (Text.ofCode code) := by
  have digits : unitOf? (Text.hexDigit (code / 16 / 16 / 16 % 16)) (Text.hexDigit (code / 16 / 16 % 16))
      (Text.hexDigit (code / 16 % 16)) (Text.hexDigit (code % 16)) = some code := by
    have digit : ∀ n, hexValue? (Text.hexDigit (n % 16)) = some (n % 16) := fun n =>
      hexValue?_hexDigit (Nat.mod_lt n (by decide))
    simp only [unitOf?, digit, Option.bind_eq_bind, Option.bind_some, Option.pure_def, Option.some.injEq]
    omega
  exact .unit digits low

/-- What is written for a character stands for it. -/
theorem spells_escape (char : Char) : Spells (escape char.toNat) (String.utf8EncodeChar char) := by
  rw [← Text.ofCode_toNat, escape]
  split
  · rename_i mark
    rcases mark with quote | backslash
    · rw [quote]
      exact .escaped (by decide) (by decide)
    · rw [backslash]
      exact .escaped (by decide) (by decide)
  split
  · rename_i same
    rw [same]
    exact .escaped (by decide) (by decide)
  split
  · rename_i same
    rw [same]
    exact .escaped (by decide) (by decide)
  split
  · rename_i same
    rw [same]
    exact .escaped (by decide) (by decide)
  split
  · rename_i same
    rw [same]
    exact .escaped (by decide) (by decide)
  split
  · rename_i same
    rw [same]
    exact .escaped (by decide) (by decide)
  split
  · exact spells_hex (by omega)
  · rename_i mark _ _ _ _ _ visible
    apply Spells.bytes
    intro b member
    rw [Text.ofCode_toNat] at member
    have code := Text.toNat_of_mem_encode member
    refine ⟨UInt8.le_iff_toNat_le.mpr ?_, ?_, ?_⟩
    · change 32 ≤ b.toNat
      omega
    · rintro rfl
      change 34 = char.toNat ∨ 128 ≤ 34 at code
      omega
    · rintro rfl
      change 92 = char.toNat ∨ 128 ≤ 92 at code
      omega

theorem spells_escapes (chars : List Char) :
    Spells (chars.flatMap fun char => escape char.toNat) (Text.ofChars chars) := by
  induction chars with
  | nil => exact .nil
  | cons char chars ih => exact (spells_escape char).append ih

theorem Spells.stringValue? (spells : Spells written value) (valid : value.isUtf8 = true) :
    stringValue? written = some value := by
  obtain ⟨⟨pieces, taken, stand⟩, -⟩ := spells
  have all := taken []
  have whole := stand []
  simp only [List.append_nil, pieces?, Option.map_some, ofPieces, lone] at all whole
  rw [Json.stringValue?, all, Option.map_some, whole, Text.ofCodes_codes valid]

/-- Reading a string that was written gives the string. -/
theorem lexFrom_writeString {value : Text} (valid : value.isUtf8 = true) (found : List Lexeme)
    (rest : Text) :
    lexFrom .between found (writeString value ++ rest) = lexFrom .between (.string value :: found) rest := by
  obtain ⟨chars, rfl⟩ := Text.isUtf8_iff.mp valid
  have spells := spells_escapes chars
  have escaped : (chars.map Rune.char).flatMap escapeRune = chars.flatMap fun char => escape char.toNat := by
    rw [List.flatMap_map]
    rfl
  rw [writeString, Text.runes_ofChars, escaped, List.append_assoc, List.append_assoc]
  change lexFrom .between found (0x22 :: (_ ++ (0x22 :: rest))) = _
  rw [lexFrom]
  change lexFrom (.string [] false) found _ = _
  rw [spells.scans, lexFrom]
  simp [Mode.step?, spells.stringValue? valid]

end RecordQuery.Json
