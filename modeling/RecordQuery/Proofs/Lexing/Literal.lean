import RecordQuery.Proofs.Lexing.Scan
import RecordQuery.Query.Format

namespace RecordQuery

namespace Text

/-- Quotes and backslashes get a backslash before them. -/
def escapeByte (b : UInt8) : Text :=
  if b = ascii '\\' ∨ b = ascii '\'' then [ascii '\\', b] else [b]

def escaped (t : Text) : Text := t.flatMap escapeByte

theorem replace_replace_eq_escaped (t : Text) :
    replace (replace t (ascii '\\') "\\\\") (ascii '\'') "\\'" = t.escaped := by
  induction t with
  | nil => rfl
  | cons b t ih =>
    simp only [replace, escaped, List.flatMap_cons, List.flatMap_append] at ih ⊢
    rw [ih]
    congr 1
    by_cases backslash : b = ascii '\\'
    · subst backslash
      decide
    · by_cases quote : b = ascii '\''
      · subst quote
        decide
      · simp [escapeByte, backslash, quote]

/-- The text in quotes. -/
def quotedLiteral (t : Text) : Text := ascii '\'' :: (t.escaped ++ [ascii '\''])

theorem literal_text (t : Text) : (Value.text t).literal = t.quotedLiteral := by
  rw [Value.literal, replace_replace_eq_escaped]
  rfl

/-- A byte as it is written is taken off before the rest. -/
theorem stringTail_escapeByte {b : UInt8} (nonzero : b ≠ 0) (rest : Text) :
    Lexer.stringTail (escapeByte b ++ rest) =
      (escapeByte b ++ (Lexer.stringTail rest).1, (Lexer.stringTail rest).2) := by
  have backslash : ascii '\\' ≠ 0 ∧ ascii '\\' ≠ ascii '\'' := by decide
  by_cases special : b = ascii '\\' ∨ b = ascii '\''
  · simp [escapeByte, special, Lexer.stringTail, nonzero, backslash]
  · obtain ⟨plain, unquoted⟩ := not_or.mp special
    rw [escapeByte, if_neg special, List.singleton_append, Lexer.stringTail.eq_def]
    simp [nonzero, plain, unquoted]

theorem stringTail_escaped {t : Text} (nonzero : ∀ b ∈ t, b ≠ 0) (rest : Text) :
    Lexer.stringTail (t.escaped ++ ascii '\'' :: rest) = (t.escaped ++ [ascii '\''], true) := by
  induction t with
  | nil =>
    have quote : ascii '\'' ≠ 0 := by decide
    rw [escaped, List.flatMap_nil, List.nil_append, Lexer.stringTail.eq_def]
    simp [quote]
  | cons b t ih =>
    have more := ih fun other member => nonzero other (.tail _ member)
    rw [escaped, List.flatMap_cons, List.append_assoc, stringTail_escapeByte (nonzero b (.head _))]
    rw [escaped] at more
    rw [more, List.append_assoc]

/-- A byte as it is written stands for itself. -/
theorem unescape_escapeByte (b : UInt8) (rest : Text) :
    Token.unescape (escapeByte b ++ rest) = b :: Token.unescape rest := by
  by_cases special : b = ascii '\\' ∨ b = ascii '\''
  · simp [escapeByte, special, Token.unescape, special.symm]
  · obtain ⟨plain, unquoted⟩ := not_or.mp special
    cases rest with
    | nil => simp [escapeByte, special, Token.unescape]
    | cons c rest =>
      rw [escapeByte, if_neg special, List.singleton_append, Token.unescape]
      simp [plain]

theorem unescape_escaped (t : Text) : Token.unescape t.escaped = t := by
  induction t with
  | nil => rfl
  | cons b t ih =>
    rw [escaped, List.flatMap_cons, unescape_escapeByte]
    rw [escaped] at ih
    rw [ih]

theorem isDigit_ascii {c : Char} (digit : c.isDigit = true) : isDigit (ascii c) = true := by
  simp only [Char.isDigit, Bool.and_eq_true, decide_eq_true_eq, ge_iff_le] at digit
  have low : 48 ≤ c.toNat := digit.1
  have high : c.toNat ≤ 57 := digit.2
  simp only [isDigit, ascii, Bool.and_eq_true, decide_eq_true_eq, UInt8.le_iff_toNat_le]
  simp
  omega

theorem digitValue_ascii {c : Char} (digit : c.isDigit = true) :
    digitValue (ascii c) = c.toNat - 48 := by
  simp only [Char.isDigit, Bool.and_eq_true, decide_eq_true_eq, ge_iff_le] at digit
  have high : c.toNat ≤ 57 := digit.2
  simp only [digitValue, ascii, UInt8.toNat_ofNat', Nat.toUInt8]
  omega

theorem isWordByte_of_isDigit {b : UInt8} (digit : isDigit b = true) : isWordByte b = true := by
  have each : ∀ n : Fin 10, isWordByte (UInt8.ofNat (48 + n)) = true := by decide
  simp only [isDigit, Bool.and_eq_true, decide_eq_true_eq, UInt8.le_iff_toNat_le] at digit
  have low : 48 ≤ b.toNat := digit.1
  have high : b.toNat ≤ 57 := digit.2
  have here := each ⟨b.toNat - 48, by omega⟩
  rwa [show 48 + (b.toNat - 48) = b.toNat by omega, UInt8.ofNat_toNat] at here

theorem isDigit_of_mem_ofNat (member : b ∈ ofNat n) : isDigit b = true := by
  obtain ⟨c, digit, rfl⟩ := List.mem_map.mp member
  exact isDigit_ascii (Nat.isDigit_of_mem_toDigits (by decide) (by decide) digit)

theorem ofNat_ne_nil (n : Nat) : ofNat n ≠ [] := by
  simp [ofNat, Nat.toDigits_ne_nil]

/-- The decimal digits of a number are a plain word. -/
theorem isPlain_ofNat (n : Nat) : (ofNat n).isPlain = true := by
  have bytes : (ofNat n).all isWordByte = true :=
    List.all_eq_true.mpr fun b member => isWordByte_of_isDigit (isDigit_of_mem_ofNat member)
  simp [isPlain, bytes, ofNat_ne_nil]

theorem isPlain_ofInt {n : Int} (nonneg : 0 ≤ n) : (ofInt n).isPlain = true := by
  obtain ⟨n, rfl⟩ := Int.eq_ofNat_of_zero_le nonneg
  exact isPlain_ofNat n

theorem startsWithDigit_ofNat (n : Nat) : Lexer.startsWithDigit (ofNat n) = true := by
  obtain ⟨b, rest, shape⟩ := List.exists_cons_of_ne_nil (ofNat_ne_nil n)
  rw [shape]
  exact isDigit_of_mem_ofNat (n := n) (by simp [shape])

/-- A number has a sign exactly if it is negative. -/
theorem isSigned_ofInt (n : Int) : (ofInt n).isSigned = decide (n < 0) := by
  cases n with
  | ofNat n => exact not_isSigned_of_isPlain (isPlain_ofNat n)
  | negSucc n =>
    rw [ofInt, isSigned, startsWithDigit_ofNat]
    exact (decide_eq_true (Int.negSucc_lt_zero n)).symm

theorem isWord_ofInt (n : Int) : (ofInt n).isWord = true := by
  cases n with
  | ofNat n => rw [isWord, ofInt, isPlain_ofNat, Bool.true_or]
  | negSucc n =>
    have signed : (ofInt (.negSucc n)).isSigned = true := by
      rw [isSigned_ofInt, decide_eq_true (Int.negSucc_lt_zero n)]
    rw [isWord, signed, ofInt, List.drop_succ_cons, List.drop_zero, isPlain_ofNat, Bool.and_true, Bool.or_true]

theorem digitsValue_ofNat (n : Nat) : digitsValue (ofNat n) = n := by
  have step : ∀ (digits : List Char) (start : Nat), (∀ c ∈ digits, c.isDigit = true) →
      (digits.map ascii).foldl (fun n b => 10 * n + digitValue b) start =
        Nat.ofDigitChars 10 digits start := by
    intro digits
    induction digits with
    | nil => exact fun _ _ => rfl
    | cons c digits ih =>
      intro start each
      rw [List.map_cons, List.foldl_cons, digitValue_ascii (each c (.head _)),
        ih _ fun other member => each other (.tail _ member)]
      rfl
  have digits : ∀ c ∈ Nat.toDigits 10 n, c.isDigit = true :=
    fun c member => Nat.isDigit_of_mem_toDigits (by decide) (by decide) member
  rw [digitsValue, ofNat, step _ _ digits, Nat.ofDigitChars_ten_toDigits]

/-- A number that is not negative is read back. -/
theorem toInt?_ofInt {n : Int} (nonneg : 0 ≤ n) : toInt? (ofInt n) = some n := by
  obtain ⟨n, rfl⟩ := Int.eq_ofNat_of_zero_le nonneg
  have digits : ∀ b ∈ ofNat n, isDigit b = true := fun b member => isDigit_of_mem_ofNat member
  have value := digitsValue_ofNat n
  change toInt? (ofNat n) = some (Int.ofNat n)
  cases shape : ofNat n with
  | nil => exact absurd shape (ofNat_ne_nil n)
  | cons b rest =>
    rw [shape] at digits value
    have minus : b ≠ ascii '-' := fun same => absurd (digits b (.head _)) (by rw [same]; decide)
    have plus : b ≠ ascii '+' := fun same => absurd (digits b (.head _)) (by rw [same]; decide)
    have all : (b :: rest).all isDigit = true := List.all_eq_true.mpr digits
    simp only [toInt?, minus, plus, ↓reduceIte, toNat?, all, List.isEmpty_cons, Bool.not_true,
      Bool.or_self, Bool.false_eq_true, Option.map_some, value]

end Text

/-- A text in quotes stands for the text. -/
theorem Token.value_quotedLiteral {token : Token} {t : Text}
    (same : token.lexeme = (.string, t.quotedLiteral)) : token.value = t := by
  obtain ⟨kind, text⟩ := Prod.mk.inj same
  rw [Text.quotedLiteral] at text
  unfold Token.value
  cases shape : t.escaped ++ [Text.ascii '\''] with
  | nil => simp at shape
  | cons b rest =>
    rw [shape] at text
    simp only [kind, text]
    rw [← shape, List.dropLast_concat, Text.unescape_escaped]

/-- A text in quotes is one token at the start of what a lexer has to read, whatever follows it. -/
theorem Lexer.token_quotedLiteral {l : Lexer} {t rest : Text} (nonzero : ∀ b ∈ t, b ≠ 0)
    (stands : l.rest = t.quotedLiteral ++ rest) : l.token = l.emit .string t.quotedLiteral := by
  have tail := Text.stringTail_escaped nonzero rest
  have quote : Text.ascii '\'' ≠ 0 ∧ Text.ascii '\'' ≠ Text.ascii '(' ∧
    Text.ascii '\'' ≠ Text.ascii ')' ∧ Text.ascii '\'' ≠ Text.ascii ',' := by decide
  simp [Lexer.token, stands, Text.quotedLiteral, quote, tail]

theorem Text.unblank_quotedLiteral (t rest : Text) :
    ∀ b ∈ (t.quotedLiteral ++ rest).head?, Lexer.isSpace b = false := by
  rintro b ⟨⟩
  decide

theorem Scans.quotedLiteral {t rest : Text} (nonzero : ∀ b ∈ t, b ≠ 0)
    (scans : Scans false rest lexemes) :
    Scans fresh (t.quotedLiteral ++ rest) ((.string, t.quotedLiteral) :: lexemes) :=
  Scans.emit (t.unblank_quotedLiteral rest) (by decide)
    (fun _ _ _ => Lexer.token_quotedLiteral nonzero rfl) scans

/-- Wherever a lexer stands, with whatever operator characters and after whatever token, it reads a text
as it is written in one token, stops right after it, and the token stands for the text. -/
theorem Lexer.next_literal (l : Lexer) (t rest : Text) (nonzero : ∀ b ∈ t, b ≠ 0)
    (stands : l.rest = (Value.text t).literal ++ rest) :
    l.next = (.ok ⟨.string, (Value.text t).literal, some l.position⟩,
        ⟨l.operators, rest, l.position.advance (Value.text t).literal, .string⟩) ∧
      Token.value ⟨.string, (Value.text t).literal, some l.position⟩ = t := by
  rw [Text.literal_text] at stands ⊢
  refine ⟨?_, Token.value_quotedLiteral rfl⟩
  rw [next_of_unblank (stands ▸ t.unblank_quotedLiteral rest), token_quotedLiteral nonzero stands, emit, skip,
    stands, List.drop_left]

/-- A backslash, a quote and a backslash, with a quote right after the literal, where quotes and
backslashes are operator characters too. -/
theorem Lexer.next_literal_escapes :
    (Value.text "\\'\\").literal = Text.ofString "'\\\\\\'\\\\'" ∧
      (⟨"'\\", "'\\\\\\'\\\\''x'", ⟨2, 4, 9⟩, .word⟩ : Lexer).next =
        (.ok ⟨.string, "'\\\\\\'\\\\'", some ⟨2, 4, 9⟩⟩, ⟨"'\\", "'x'", ⟨2, 12, 17⟩, .string⟩) ∧
      Token.value ⟨.string, "'\\\\\\'\\\\'", some ⟨2, 4, 9⟩⟩ = Text.ofString "\\'\\" := by
  have written : (Value.text "\\'\\").literal = Text.ofString "'\\\\\\'\\\\'" := by decide
  have read := next_literal ⟨"'\\", "'\\\\\\'\\\\''x'", ⟨2, 4, 9⟩, .word⟩ "\\'\\" "'x'" (by decide +kernel) rfl
  rw [written] at read
  exact ⟨written, read⟩

end RecordQuery
