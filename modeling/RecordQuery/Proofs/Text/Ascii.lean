import RecordQuery.Operator

namespace RecordQuery.Text

theorem toNat_ofNat_of_lt {code : Nat} (low : code < 128) : (Char.ofNat code).toNat = code := by
  have valid : code.isValidChar := .inl (by omega)
  rw [Char.ofNat, dif_pos valid]
  rfl

theorem codes_cons {b : UInt8} (low : b < 0x80) (rest : Text) :
    codes (b :: rest) = b.toNat :: codes rest := by
  have small : b.toNat < 128 := UInt8.lt_iff_toNat_lt.mp low
  have first : firstRune b rest = (.char (Char.ofNat b.toNat), 0) := by simp [firstRune, low]
  simp [codes, runes, runesFrom, first, Rune.code, toNat_ofNat_of_lt small]

/-- Texts whose first bytes differ beyond case are different words. -/
theorem sameFold_cons {b c : UInt8} {rest more : Text} (low : b < 0x80) (lowOther : c < 0x80)
    (other : foldCode b.toNat ≠ foldCode c.toNat) : sameFold (b :: rest) (c :: more) = false := by
  simp [sameFold, codes_cons low, codes_cons lowOther, other]

theorem codes_of_ascii {t : Text} (low : ∀ b ∈ t, b < 0x80) : t.codes = t.map UInt8.toNat := by
  induction t with
  | nil => rfl
  | cons b t ih =>
    rw [codes_cons (low b (.head _)), ih fun c member => low c (.tail _ member), List.map_cons]

theorem ofCode_of_lt {code : Nat} (low : code < 128) : ofCode code = [code.toUInt8] := by
  have each : ∀ code, code < 128 → ofCode code = [code.toUInt8] := by decide
  exact each code low

theorem codes_ofCodes {codes : List Nat} (low : ∀ code ∈ codes, code < 128) :
    (ofCodes codes).codes = codes := by
  induction codes with
  | nil => rfl
  | cons code codes ih =>
    have small := low code (.head _)
    have byte : code.toUInt8.toNat = code := by
      rw [UInt8.toNat_ofNat']
      omega
    have lowByte : code.toUInt8 < 0x80 := UInt8.lt_iff_toNat_lt.mpr (by rw [byte]; exact small)
    change (ofCode code ++ ofCodes codes).codes = _
    rw [ofCode_of_lt small, List.singleton_append, codes_cons lowByte, byte,
      ih fun other member => low other (.tail _ member)]

/-- An ASCII text differs from its upper case only by case. -/
theorem sameFold_upper {t : Text} (low : ∀ b ∈ t, b < 0x80) : t.sameFold t.upper = true := by
  have small : ∀ code ∈ t.codes, code < 128 := by
    rw [codes_of_ascii low]
    intro code member
    obtain ⟨b, inside, rfl⟩ := List.mem_map.mp member
    exact UInt8.lt_iff_toNat_lt.mp (low b inside)
  have upper : ∀ code, code < 128 → upperCode code < 128 ∧ foldCode (upperCode code) = foldCode code := by
    decide
  have mapped : t.upper.codes = t.codes.map upperCode := by
    apply codes_ofCodes
    intro code member
    obtain ⟨other, inside, rfl⟩ := List.mem_map.mp member
    exact (upper other (small other inside)).1
  rw [sameFold, mapped, List.map_map, beq_iff_eq]
  exact List.map_congr_left fun code member => (upper code (small code member)).2.symm

/-- An ASCII text is an operator only if it spells one up to case. -/
theorem ofSymbol?_of_ascii {t : Text} (low : ∀ b ∈ t, b < 0x80)
    (unlike : ∀ operator ∈ Operator.all, t.sameFold operator.symbol = false) :
    Operator.ofSymbol? t = none := by
  rw [Operator.ofSymbol?, List.find?_eq_none]
  intro operator member same
  have equal : operator.symbol = t.upper := by simpa using same
  have like := sameFold_upper low
  rw [← equal, unlike operator member] at like
  cases like

/-- A text with a byte that a word lacks in either case is not that word. -/
theorem sameFold_of_mem {t w : Text} {b : UInt8} (low : ∀ b ∈ t, b < 0x80) (member : b ∈ t)
    (lacks : foldCode b.toNat ∉ w.codes.map foldCode) : t.sameFold w = false := by
  have inside : foldCode b.toNat ∈ t.codes.map foldCode := by
    rw [codes_of_ascii low, List.map_map]
    exact List.mem_map.mpr ⟨b, member, rfl⟩
  rw [sameFold, beq_eq_false_iff_ne]
  intro same
  exact lacks (same ▸ inside)

end RecordQuery.Text
