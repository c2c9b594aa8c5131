import RecordQuery.Proofs.Lexing.Literal

namespace RecordQuery

namespace Text

/-- The word at the start of a text, if the first byte is part of it. -/
theorem isPlain_takeWhile {b : UInt8} (inside : isWordByte b = true) (rest : Text) :
    isPlain ((b :: rest).takeWhile isWordByte) = true := by
  have all : ((b :: rest).takeWhile isWordByte).all isWordByte = true := List.all_takeWhile
  have filled : (b :: rest).takeWhile isWordByte ≠ [] := by simp [inside]
  simp [isPlain, filled, all]

theorem ne_zero_of_isPlain {w : Text} (plain : w.isPlain = true) : ∀ b ∈ w, b ≠ 0 := by
  intro b member
  simp only [isPlain, Bool.and_eq_true] at plain
  have byte := List.all_eq_true.mp plain.2 b member
  exact (isWordByte_iff.mp byte).1

theorem ne_zero_of_isWord {w : Text} (word : w.isWord = true) : ∀ b ∈ w, b ≠ 0 := by
  simp only [isWord, Bool.or_eq_true, Bool.and_eq_true] at word
  rcases word with plain | ⟨signed, plain⟩
  · exact ne_zero_of_isPlain plain
  · cases w with
    | nil => cases signed
    | cons sign rest =>
      have nonzero : sign ≠ 0 := by
        rintro rfl
        simp only [isSigned, Bool.and_eq_true] at signed
        cases signed.1
      intro b member
      rcases List.mem_cons.mp member with rfl | later
      · exact nonzero
      · exact ne_zero_of_isPlain plain b later

end Text

namespace Lexer

variable {last : TokenKind} {token : Token}

/-- The two ways a word of a text comes about: it is plain, or it is a number with a sign in a place
where a value may begin. -/
theorem Origin.word_cases (origin : Origin defaultOperators last token) (kind : token.kind = .word) :
    token.text.isPlain = true ∨
      (token.text.isSigned = true ∧ Text.isPlain (token.text.drop 1) = true ∧
        beforeValue last = true) := by
  cases origin with
  | mark other => rcases other with other | other | other | other <;> cases kind.symm.trans other
  | string other _ _ => cases kind.symm.trans other
  | @number sign rest _ signed digit before text =>
    cases rest with
    | nil => cases digit
    | cons b rest =>
      have byte : Text.isWordByte b = true := Text.isWordByte_of_isDigit digit
      have number : token.text = sign :: (b :: rest).takeWhile Text.isWordByte := text
      have plain := Text.isPlain_takeWhile byte rest
      rw [List.takeWhile_cons, if_pos byte] at number plain
      refine .inr ⟨?_, ?_, before⟩
      · rw [number, Text.isSigned, signed]
        exact digit
      · rw [number]
        exact plain
  | @word first rest _ inside text =>
    have unsigned : isSign first = false := Text.isSign_of_isWordByte inside
    have plain : token.text = (first :: rest).takeWhile Text.isWordByte := by
      rw [text, Lexer.word, unsigned]
      rfl
    rw [plain]
    exact .inl (Text.isPlain_takeWhile inside rest)

theorem Origin.isWord (origin : Origin defaultOperators last token) (kind : token.kind = .word) :
    token.text.isWord = true := by
  rcases origin.word_cases kind with plain | ⟨signed, plain, -⟩
  · simp [Text.isWord, plain]
  · rw [Text.isWord, signed, plain, Bool.true_and, Bool.or_true]

/-- Where no value may begin, a word has no sign. -/
theorem Origin.unsigned (origin : Origin defaultOperators last token) (kind : token.kind = .word)
    (stale : beforeValue last = false) : token.text.isSigned = false := by
  rcases origin.word_cases kind with plain | ⟨-, -, before⟩
  · exact Text.not_isSigned_of_isPlain plain
  · cases stale.symm.trans before

/-- A string takes no zero byte. -/
theorem stringTail_nonzero (rest : Text) : ∀ b ∈ (stringTail rest).1, b ≠ 0 := by
  -- A backslash takes two bytes, so the induction is on the recursion of the scan.
  fun_induction stringTail rest with
  | case1 => simp
  | case2 => simp
  | case3 => decide +kernel
  | case4 => decide +kernel
  | case5 => decide +kernel
  | case6 c rest nonzero _ _ ih =>
    intro b member
    rcases List.mem_cons.mp member with rfl | later
    · decide
    · rcases List.mem_cons.mp later with rfl | inside
      · exact nonzero
      · exact ih b inside
  | case7 b rest zero _ _ ih =>
    intro c member
    rcases List.mem_cons.mp member with rfl | later
    · exact zero
    · exact ih c later

theorem mem_of_mem_unescape {t : Text} (member : b ∈ Token.unescape t) : b ∈ t := by
  fun_induction Token.unescape t with
  | case1 => exact member
  | case2 => exact member
  | case3 first second rest escaped ih =>
    rcases List.mem_cons.mp member with rfl | later
    · simp
    · simp [ih later]
  | case4 first second rest plain ih =>
    rcases List.mem_cons.mp member with rfl | later
    · simp
    · exact List.mem_cons_of_mem _ (ih later)

/-- The value of a word or of a string holds no zero byte. -/
theorem Origin.value_nonzero (origin : Origin defaultOperators last token)
    (kind : token.kind = .word ∨ token.kind = .string) : ∀ b ∈ token.value, b ≠ 0 := by
  rcases kind with word | string
  · have same : token.value = token.text := by
      rw [Token.value]
      simp [word]
    rw [same]
    exact Text.ne_zero_of_isWord (origin.isWord word)
  · have bytes : ∀ b ∈ token.text, b ≠ 0 := by
      cases origin with
      | mark other => rcases other with other | other | other | other <;> cases string.symm.trans other
      | @string rest _ _ text =>
        rw [text]
        intro b member
        rcases List.mem_cons.mp member with rfl | later
        · decide
        · exact stringTail_nonzero rest b later
      | number other _ _ _ _ => cases string.symm.trans other
      | word other _ _ => cases string.symm.trans other
    intro b member
    apply bytes
    rw [Token.value] at member
    split at member
    · rename_i first second rest _ shape
      rw [shape]
      exact List.mem_cons_of_mem _ ((List.dropLast_sublist _).mem (mem_of_mem_unescape member))
    · exact member

end Lexer
end RecordQuery
