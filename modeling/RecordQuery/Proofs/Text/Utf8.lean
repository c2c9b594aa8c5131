import Mathlib.Data.List.TakeDrop
import RecordQuery.Proofs.Text.Ascii

namespace RecordQuery.Text

/-- The bytes of characters one after the other. -/
def ofChars (chars : List Char) : Text := chars.flatMap String.utf8EncodeChar

/-- The bytes of one character, by how many there are. -/
inductive Encodes : Text → Char → Prop where
  | one (low : a < 0x80) : Encodes [a] (Char.ofNat a.toNat)
  | pair (bytes : isPair a b = true) : Encodes [a, b] (Char.ofNat (pairCode a b))
  | triple (bytes : isTriple a b c = true) : Encodes [a, b, c] (Char.ofNat (tripleCode a b c))
  | quad (bytes : isQuad a b c d = true) : Encodes [a, b, c, d] (Char.ofNat (quadCode a b c d))

section Bytes

variable {a b c d : UInt8}

theorem isTail_iff : isTail b = true ↔ 0x80 ≤ b.toNat ∧ b.toNat ≤ 0xBF := by
  simp [isTail, UInt8.le_iff_toNat_le]

theorem isPair_iff : isPair a b = true ↔
    (0xC2 ≤ a.toNat ∧ a.toNat ≤ 0xDF) ∧ 0x80 ≤ b.toNat ∧ b.toNat ≤ 0xBF := by
  simp [isPair, isTail_iff, UInt8.le_iff_toNat_le]

theorem isTriple_iff : isTriple a b c = true ↔
    (0xE0 ≤ a.toNat ∧ a.toNat ≤ 0xEF) ∧ (0x80 ≤ b.toNat ∧ b.toNat ≤ 0xBF) ∧
      (0x80 ≤ c.toNat ∧ c.toNat ≤ 0xBF) ∧ (a.toNat = 0xE0 → 0xA0 ≤ b.toNat) ∧
      (a.toNat = 0xED → b.toNat ≤ 0x9F) := by
  simp [isTriple, isTail_iff, UInt8.le_iff_toNat_le, ← UInt8.toNat_inj, and_assoc, imp_iff_not_or]

theorem isQuad_iff : isQuad a b c d = true ↔
    (0xF0 ≤ a.toNat ∧ a.toNat ≤ 0xF4) ∧ (0x80 ≤ b.toNat ∧ b.toNat ≤ 0xBF) ∧
      (0x80 ≤ c.toNat ∧ c.toNat ≤ 0xBF) ∧ (0x80 ≤ d.toNat ∧ d.toNat ≤ 0xBF) ∧
      (a.toNat = 0xF0 → 0x90 ≤ b.toNat) ∧ (a.toNat = 0xF4 → b.toNat ≤ 0x8F) := by
  simp [isQuad, isTail_iff, UInt8.le_iff_toNat_le, ← UInt8.toNat_inj, and_assoc, imp_iff_not_or]

theorem pairCode_eq (a b : UInt8) : pairCode a b = a.toNat % 32 * 64 + b.toNat % 64 := by
  simp only [pairCode, bits, UInt8.toNat_and]
  rw [show (0x1F : UInt8).toNat = 2 ^ 5 - 1 from rfl, show (0x3F : UInt8).toNat = 2 ^ 6 - 1 from rfl,
    Nat.and_two_pow_sub_one_eq_mod, Nat.and_two_pow_sub_one_eq_mod]

theorem tripleCode_eq (a b c : UInt8) :
    tripleCode a b c = (a.toNat % 16 * 64 + b.toNat % 64) * 64 + c.toNat % 64 := by
  simp only [tripleCode, bits, UInt8.toNat_and]
  rw [show (0x0F : UInt8).toNat = 2 ^ 4 - 1 from rfl, show (0x3F : UInt8).toNat = 2 ^ 6 - 1 from rfl]
  simp only [Nat.and_two_pow_sub_one_eq_mod]

theorem quadCode_eq (a b c d : UInt8) :
    quadCode a b c d =
      ((a.toNat % 8 * 64 + b.toNat % 64) * 64 + c.toNat % 64) * 64 + d.toNat % 64 := by
  simp only [quadCode, bits, UInt8.toNat_and]
  rw [show (0x07 : UInt8).toNat = 2 ^ 3 - 1 from rfl, show (0x3F : UInt8).toNat = 2 ^ 6 - 1 from rfl]
  simp only [Nat.and_two_pow_sub_one_eq_mod]

end Bytes

theorem val_ofNat_of_valid {code : Nat} (valid : code.isValidChar) :
    (Char.ofNat code).val.toNat = code := by
  rw [Char.ofNat, dif_pos valid]
  rfl

theorem ofNat_eq_of_toNat {b : UInt8} {n : Nat} (same : n = b.toNat) : UInt8.ofNat n = b := by
  rw [same, UInt8.ofNat_toNat]

theorem Encodes.eq (encodes : Encodes bytes c) : bytes = String.utf8EncodeChar c := by
  cases encodes with
  | @one a low =>
    have small : a.toNat < 0x80 := UInt8.lt_iff_toNat_lt.mp low
    have code := val_ofNat_of_valid (.inl (by omega) : a.toNat.isValidChar)
    simp only [String.utf8EncodeChar, code]
    rw [if_pos (by omega), UInt8.ofNat_toNat]
  | @pair a b bytes =>
    obtain ⟨first, second⟩ := isPair_iff.mp bytes
    have same := pairCode_eq a b
    have code := val_ofNat_of_valid (.inl (by omega) : (pairCode a b).isValidChar)
    simp only [String.utf8EncodeChar, code]
    rw [if_neg (by omega), if_pos (by omega), ofNat_eq_of_toNat (b := a) (by omega),
      ofNat_eq_of_toNat (b := b) (by omega)]
  | @triple a b c bytes =>
    obtain ⟨first, second, third, short, surrogate⟩ := isTriple_iff.mp bytes
    have same := tripleCode_eq a b c
    have valid : (tripleCode a b c).isValidChar := by
      rw [Nat.isValidChar]
      omega
    have code := val_ofNat_of_valid valid
    simp only [String.utf8EncodeChar, code]
    rw [if_neg (by omega), if_neg (by omega), if_pos (by omega), ofNat_eq_of_toNat (b := a) (by omega),
      ofNat_eq_of_toNat (b := b) (by omega), ofNat_eq_of_toNat (b := c) (by omega)]
  | @quad a b c d bytes =>
    obtain ⟨first, second, third, fourth, short, large⟩ := isQuad_iff.mp bytes
    have same := quadCode_eq a b c d
    have valid : (quadCode a b c d).isValidChar := by
      rw [Nat.isValidChar]
      omega
    have code := val_ofNat_of_valid valid
    simp only [String.utf8EncodeChar, code]
    rw [if_neg (by omega), if_neg (by omega), if_neg (by omega), ofNat_eq_of_toNat (b := a) (by omega),
      ofNat_eq_of_toNat (b := b) (by omega), ofNat_eq_of_toNat (b := c) (by omega),
      ofNat_eq_of_toNat (b := d) (by omega)]

section Forms

variable {a b c d : UInt8} {code : Nat}

theorem Encodes.of_pair (first : a.toNat = code / 64 % 32 + 192) (second : b.toNat = code % 64 + 128)
    (above : 0x80 ≤ code) (below : code ≤ 0x7FF) : Encodes [a, b] (Char.ofNat code) := by
  have same : pairCode a b = code := by
    rw [pairCode_eq]
    omega
  rw [← same]
  exact .pair (isPair_iff.mpr (by omega))

theorem Encodes.of_triple (first : a.toNat = code / 4096 % 16 + 224)
    (second : b.toNat = code / 64 % 64 + 128) (third : c.toNat = code % 64 + 128)
    (above : 0x800 ≤ code) (below : code ≤ 0xFFFF) (valid : code.isValidChar) :
    Encodes [a, b, c] (Char.ofNat code) := by
  have same : tripleCode a b c = code := by
    rw [tripleCode_eq]
    omega
  rw [← same]
  rw [Nat.isValidChar] at valid
  exact .triple (isTriple_iff.mpr (by omega))

theorem Encodes.of_quad (first : a.toNat = code / 262144 % 8 + 240)
    (second : b.toNat = code / 4096 % 64 + 128) (third : c.toNat = code / 64 % 64 + 128)
    (fourth : d.toNat = code % 64 + 128) (above : 0x10000 ≤ code) (valid : code.isValidChar) :
    Encodes [a, b, c, d] (Char.ofNat code) := by
  rw [Nat.isValidChar] at valid
  have same : quadCode a b c d = code := by
    rw [quadCode_eq]
    omega
  rw [← same]
  exact .quad (isQuad_iff.mpr (by omega))

end Forms

/-- Each character is encoded in one of the forms. -/
theorem encodes_utf8EncodeChar (char : Char) : Encodes (String.utf8EncodeChar char) char := by
  have valid : char.val.toNat.isValidChar := char.valid
  have back : Char.ofNat char.val.toNat = char := Char.ofNat_toNat char
  have byte : ∀ {n : Nat}, n < 256 → (UInt8.ofNat n).toNat = n := by
    intro n small
    rw [UInt8.toNat_ofNat']
    omega
  rw [← back]
  simp only [String.utf8EncodeChar, val_ofNat_of_valid valid]
  generalize char.val.toNat = code at valid
  split
  · have low : UInt8.ofNat code < 0x80 := by
      rw [UInt8.lt_iff_toNat_lt, byte (by omega)]
      exact Nat.lt_succ_of_le (by assumption)
    have encodes := Encodes.one low
    rwa [byte (by omega)] at encodes
  split
  · exact .of_pair (byte (by omega)) (byte (by omega)) (by omega) (by omega)
  split
  · exact .of_triple (byte (by omega)) (byte (by omega)) (byte (by omega)) (by omega) (by omega) valid
  · exact .of_quad (byte (by omega)) (byte (by omega)) (byte (by omega)) (byte (by omega)) (by omega) valid

/-- What follows the first byte of a character. -/
theorem Encodes.cons (encodes : Encodes bytes c) :
    ∃ a tail, bytes = a :: tail ∧ isTail a = false ∧ ∀ b ∈ tail, isTail b = true := by
  cases encodes with
  | @one a low =>
    have small : a.toNat < 0x80 := UInt8.lt_iff_toNat_lt.mp low
    exact ⟨a, [], rfl, by simp [Bool.eq_false_iff, isTail_iff]; omega, by simp⟩
  | @pair a b bytes =>
    obtain ⟨first, second⟩ := isPair_iff.mp bytes
    exact ⟨a, [b], rfl, by simp [Bool.eq_false_iff, isTail_iff]; omega, by simp [isTail_iff, second]⟩
  | @triple a b c bytes =>
    obtain ⟨first, second, third, -⟩ := isTriple_iff.mp bytes
    exact ⟨a, [b, c], rfl, by simp [Bool.eq_false_iff, isTail_iff]; omega,
      by simp [isTail_iff, second, third]⟩
  | @quad a b c d bytes =>
    obtain ⟨first, second, third, fourth, -⟩ := isQuad_iff.mp bytes
    exact ⟨a, [b, c, d], rfl, by simp [Bool.eq_false_iff, isTail_iff]; omega,
      by simp [isTail_iff, second, third, fourth]⟩

/-- Beyond ASCII a character has no ASCII bytes. -/
theorem toNat_of_mem_encode {b : UInt8} {char : Char} (member : b ∈ String.utf8EncodeChar char) :
    b.toNat = char.toNat ∨ 0x80 ≤ b.toNat := by
  have encodes := encodes_utf8EncodeChar char
  generalize String.utf8EncodeChar char = bytes at encodes member
  cases encodes with
  | one low =>
    obtain rfl := List.mem_singleton.mp member
    exact .inl (toNat_ofNat_of_lt (UInt8.lt_iff_toNat_lt.mp low)).symm
  | pair bytes =>
    have range := isPair_iff.mp bytes
    simp only [List.mem_cons, List.not_mem_nil, or_false] at member
    rcases member with rfl | rfl <;> omega
  | triple bytes =>
    have range := isTriple_iff.mp bytes
    simp only [List.mem_cons, List.not_mem_nil, or_false] at member
    rcases member with rfl | rfl | rfl <;> omega
  | quad bytes =>
    have range := isQuad_iff.mp bytes
    simp only [List.mem_cons, List.not_mem_nil, or_false] at member
    rcases member with rfl | rfl | rfl | rfl <;> omega

section Runes

theorem not_low {b : UInt8} (high : 0x80 ≤ b.toNat) : ¬ b < 0x80 :=
  fun low => Nat.not_lt.mpr high (UInt8.lt_iff_toNat_lt.mp low)

/-- The first rune of the bytes of a character is the character. -/
theorem firstRune_of_encodes {tail : Text} (encodes : Encodes (a :: tail) char) (rest : Text) :
    firstRune a (tail ++ rest) = (.char char, tail.length) := by
  cases encodes with
  | one low => simp [firstRune, low]
  | @pair _ b bytes =>
    have first := (isPair_iff.mp bytes).1
    have high : ¬ a < 0x80 := not_low (by omega)
    rcases rest with _ | ⟨_, _ | _⟩ <;> simp [firstRune, high, bytes]
  | @triple _ b c bytes =>
    have first := (isTriple_iff.mp bytes).1
    have high : ¬ a < 0x80 := not_low (by omega)
    have longer : ¬ isPair a b = true := by
      rw [isPair_iff]
      omega
    cases rest <;> simp [firstRune, high, longer, bytes]
  | @quad _ b c d bytes =>
    have first := (isQuad_iff.mp bytes).1
    have high : ¬ a < 0x80 := not_low (by omega)
    have longer : ¬ isPair a b = true := by
      rw [isPair_iff]
      omega
    have longest : ¬ isTriple a b c = true := by
      rw [isTriple_iff]
      omega
    simp [firstRune, high, longer, longest, bytes]

/-- A rune at the start of a text is written there. -/
theorem firstRune_bytes (a : UInt8) (rest : Text) :
    (firstRune a rest).1.bytes ++ rest.drop (firstRune a rest).2 = a :: rest := by
  unfold firstRune
  split
  · rename_i low
    simp [Rune.bytes, ← (Encodes.one low).eq]
  · split
    · rfl
    · split
      · rename_i bytes
        simp [Rune.bytes, ← (Encodes.pair bytes).eq]
      · rfl
    · split
      · rename_i bytes
        simp [Rune.bytes, ← (Encodes.pair bytes).eq]
      · split
        · rename_i bytes
          simp [Rune.bytes, ← (Encodes.triple bytes).eq]
        · rfl
    · split
      · rename_i bytes
        simp [Rune.bytes, ← (Encodes.pair bytes).eq]
      · split
        · rename_i bytes
          simp [Rune.bytes, ← (Encodes.triple bytes).eq]
        · split
          · rename_i bytes
            simp [Rune.bytes, ← (Encodes.quad bytes).eq]
          · rfl

theorem ofRunes_runesFrom (skip : Nat) (t : Text) : ofRunes (runesFrom skip t) = t.drop skip := by
  induction t generalizing skip with
  | nil => simp [runesFrom, ofRunes]
  | cons a rest ih =>
    cases skip with
    | zero =>
      rw [runesFrom, List.drop_zero, ofRunes, List.flatMap_cons]
      change _ ++ ofRunes _ = _
      rw [ih]
      exact firstRune_bytes a rest
    | succ skip => simpa [runesFrom] using ih skip

/-- Reading a text as runes loses nothing. -/
theorem ofRunes_runes (t : Text) : ofRunes t.runes = t := ofRunes_runesFrom 0 t

theorem runesFrom_append (skipped rest : Text) : runesFrom skipped.length (skipped ++ rest) = rest.runes := by
  induction skipped with
  | nil => rfl
  | cons _ skipped ih => exact ih

theorem runes_append (char : Char) (rest : Text) :
    runes (String.utf8EncodeChar char ++ rest) = .char char :: rest.runes := by
  have encodes := encodes_utf8EncodeChar char
  obtain ⟨a, tail, same, -, -⟩ := encodes.cons
  rw [same] at encodes ⊢
  rw [List.cons_append, runes, runesFrom, firstRune_of_encodes encodes, runesFrom_append]

theorem runes_ofChars (chars : List Char) : (ofChars chars).runes = chars.map .char := by
  induction chars with
  | nil => rfl
  | cons char chars ih =>
    rw [ofChars, List.flatMap_cons, runes_append]
    exact congrArg _ ih

end Runes

theorem exists_chars {runes : List Rune} (all : runes.all Rune.isChar = true) :
    ∃ chars : List Char, runes = chars.map .char := by
  induction runes with
  | nil => exact ⟨[], rfl⟩
  | cons rune runes ih =>
    rw [List.all_cons, Bool.and_eq_true] at all
    obtain ⟨chars, rfl⟩ := ih all.2
    cases rune with
    | char char => exact ⟨char :: chars, rfl⟩
    | stray byte => cases all.1

/-- A text is valid UTF-8 just if it is the encoding of some characters. -/
theorem isUtf8_iff {t : Text} : t.isUtf8 = true ↔ ∃ chars, t = ofChars chars := by
  constructor
  · intro valid
    obtain ⟨chars, same⟩ := exists_chars valid
    refine ⟨chars, ?_⟩
    rw [← ofRunes_runes t, same, ofRunes, List.flatMap_map]
    rfl
  · rintro ⟨chars, rfl⟩
    simp [isUtf8, runes_ofChars, Rune.isChar]

@[simp] theorem isUtf8_ofChars (chars : List Char) : (ofChars chars).isUtf8 = true :=
  isUtf8_iff.mpr ⟨chars, rfl⟩

@[simp] theorem isUtf8_ofString (s : String) : (ofString s).isUtf8 = true := isUtf8_ofChars s.toList

theorem ofCode_toNat (char : Char) : ofCode char.toNat = String.utf8EncodeChar char := by
  rw [ofCode, Char.ofNat_toNat]

/-- Valid text survives being read as code points. -/
theorem ofCodes_codes {t : Text} (valid : t.isUtf8 = true) : ofCodes t.codes = t := by
  obtain ⟨chars, rfl⟩ := isUtf8_iff.mp valid
  rw [codes, runes_ofChars, ofCodes, List.flatMap_map, List.flatMap_map]
  simp only [Rune.code, ofCode_toNat]
  rfl

theorem isUtf8_append {s t : Text} (first : s.isUtf8 = true) (second : t.isUtf8 = true) :
    (s ++ t).isUtf8 = true := by
  obtain ⟨chars, rfl⟩ := isUtf8_iff.mp first
  obtain ⟨more, rfl⟩ := isUtf8_iff.mp second
  exact isUtf8_iff.mpr ⟨chars ++ more, List.flatMap_append.symm⟩

theorem isUtf8_join {separator : Text} {parts : List Text} (separates : separator.isUtf8 = true)
    (valid : ∀ part ∈ parts, part.isUtf8 = true) : (join separator parts).isUtf8 = true := by
  induction parts with
  | nil => rfl
  | cons part parts ih =>
    obtain ⟨first, others⟩ := List.forall_mem_cons.mp valid
    cases parts with
    | nil => simpa [join] using first
    | cons next parts =>
      rw [join, List.intercalate_cons_cons]
      exact isUtf8_append (isUtf8_append first separates) (ih others)

/-- A valid text may be cut before any byte that starts a character. -/
theorem isUtf8_cut {s t : Text} (valid : (s ++ t).isUtf8 = true)
    (starts : ∀ b ∈ t.head?, isTail b = false) : s.isUtf8 = true ∧ t.isUtf8 = true := by
  obtain ⟨chars, same⟩ := isUtf8_iff.mp valid
  clear valid
  induction chars generalizing s with
  | nil =>
    obtain ⟨rfl, rfl⟩ := List.append_eq_nil_iff.mp same
    exact ⟨rfl, rfl⟩
  | cons char chars ih =>
    obtain ⟨a, tail, bytes, -, tails⟩ := (encodes_utf8EncodeChar char).cons
    have more : (ofChars chars).isUtf8 = true := isUtf8_ofChars chars
    change s ++ t = String.utf8EncodeChar char ++ ofChars chars at same
    rcases List.append_eq_append_iff.mp same with ⟨inner, whole, rest⟩ | ⟨inner, rfl, rest⟩
    · cases s with
      | nil =>
        rw [List.nil_append] at same
        exact ⟨rfl, same ▸ isUtf8_ofChars (char :: chars)⟩
      | cons first s =>
        -- A cut within a character leaves one of its other bytes in front.
        cases inner with
        | nil =>
          rw [List.append_nil] at whole
          rw [List.nil_append] at rest
          refine ⟨?_, rest ▸ more⟩
          rw [← whole]
          simpa [ofChars] using isUtf8_ofChars [char]
        | cons b inner =>
          rw [bytes, List.cons_append] at whole
          obtain ⟨-, rfl⟩ := List.cons.inj whole
          have isTail := tails b (by simp)
          rw [starts b (by simp [rest])] at isTail
          cases isTail
    · obtain ⟨first, second⟩ := ih rest.symm
      refine ⟨isUtf8_append ?_ first, second⟩
      simpa [ofChars] using isUtf8_ofChars [char]

end RecordQuery.Text
