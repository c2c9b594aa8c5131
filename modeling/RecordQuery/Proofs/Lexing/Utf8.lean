import RecordQuery.Proofs.Lexing.Run
import RecordQuery.Proofs.Text.Utf8

/-! The tokens of a valid text are valid, provided that its operators are: where the characters of
operators are not ASCII, an operator may be cut out of a character. -/
namespace RecordQuery

namespace Text

theorem isTail_of_lt {b : UInt8} (low : b < 0x80) : isTail b = false := by
  have small := UInt8.lt_iff_toNat_lt.mp low
  rw [Bool.eq_false_iff]
  intro tail
  have high := (isTail_iff.mp tail).1
  change b.toNat < 128 at small
  omega

/-- What comes after valid text is as valid as the whole. -/
theorem isUtf8_append_right {s t : Text} (first : s.isUtf8 = true) (valid : (s ++ t).isUtf8 = true) :
    t.isUtf8 = true := by
  obtain ⟨chars, rfl⟩ := isUtf8_iff.mp first
  induction chars with
  | nil => exact valid
  | cons char chars ih =>
    refine ih (isUtf8_ofChars chars) ?_
    have shape : ofChars (char :: chars) ++ t = String.utf8EncodeChar char ++ (ofChars chars ++ t) := by
      simp [ofChars]
    rw [shape, isUtf8, runes_append, List.all_cons, Bool.and_eq_true] at valid
    exact valid.2

theorem isUtf8_of_ascii {t : Text} (low : ∀ b ∈ t, b < 0x80) : t.isUtf8 = true := by
  induction t with
  | nil => rfl
  | cons b t ih =>
    have first : isUtf8 [b] = true := by
      simp [isUtf8, runes, runesFrom, firstRune, low b (.head _), Rune.isChar]
    exact isUtf8_append first (ih fun other member => low other (.tail _ member))

theorem isTail_head {b : UInt8} {t : Text} (valid : isUtf8 (b :: t) = true) : isTail b = false := by
  obtain ⟨chars, same⟩ := isUtf8_iff.mp valid
  cases chars with
  | nil => cases same
  | cons char chars =>
    obtain ⟨a, tail, bytes, starts, -⟩ := (encodes_utf8EncodeChar char).cons
    change b :: t = String.utf8EncodeChar char ++ ofChars chars at same
    rw [bytes] at same
    rw [(List.cons.inj same).1]
    exact starts

/-- A valid text may be cut after any ASCII byte. -/
theorem isUtf8_cut_after {s t : Text} {b : UInt8} (low : b < 0x80) (valid : (s ++ [b] ++ t).isUtf8 = true) :
    s.isUtf8 = true ∧ t.isUtf8 = true := by
  rw [List.append_assoc] at valid
  obtain ⟨first, second⟩ := isUtf8_cut valid (by simp [isTail_of_lt low])
  exact ⟨first, isUtf8_append_right (isUtf8_of_ascii (by simp [low])) second⟩

/-- An invalid byte is no part of an operator in any case. -/
theorem isUtf8_of_ofSymbol? {t : Text} (found : Operator.ofSymbol? t = some operator) : t.isUtf8 = true := by
  have same : operator.symbol = t.upper := by simpa using List.find?_some found
  have ascii : ∀ operator ∈ Operator.all, ∀ b ∈ operator.symbol, b < 0x80 := by decide +kernel
  rw [isUtf8, List.all_eq_true]
  intro rune member
  cases rune with
  | char c => rfl
  | stray b =>
    -- Its replacement is its own upper case, and is not ASCII.
    have code : 0xFFFD ∈ t.codes.map upperCode :=
      List.mem_map.mpr ⟨0xFFFD, List.mem_map.mpr ⟨_, member, rfl⟩, by decide⟩
    have byte : 0xEF ∈ t.upper := List.mem_flatMap.mpr ⟨_, code, by decide⟩
    rw [← same] at byte
    have low := ascii operator (List.mem_of_find?_eq_some found) _ byte
    cases (by decide : ¬ (0xEF : UInt8) < 0x80) low

section Unescape

theorem unescape_append {s : Text} (plain : ∀ b ∈ s, b ≠ ascii '\\') (t : Text) :
    Token.unescape (s ++ t) = s ++ Token.unescape t := by
  induction s with
  | nil => rfl
  | cons b s ih =>
    obtain ⟨first, others⟩ := List.forall_mem_cons.mp plain
    rw [List.cons_append, List.cons_append, ← ih others]
    cases s ++ t with
    | nil => rfl
    | cons c rest => simp [Token.unescape, first]

theorem ne_ascii_of_mem_encode {char other : Char} (low : other.toNat < 0x80) (different : char ≠ other) :
    ∀ b ∈ String.utf8EncodeChar char, b ≠ ascii other := by
  rintro b member rfl
  have byte : (ascii other).toNat = other.toNat := by
    simp only [ascii, UInt8.toNat_ofNat', Nat.toUInt8]
    omega
  rcases toNat_of_mem_encode member with same | high
  · exact different (Char.toNat_inj.mp (same.symm.trans byte))
  · omega

/-- A backslash is dropped with the byte that it is, for other characters have no such byte. -/
theorem isUtf8_unescape {t : Text} (valid : t.isUtf8 = true) : (Token.unescape t).isUtf8 = true := by
  obtain ⟨chars, rfl⟩ := isUtf8_iff.mp valid
  clear valid
  -- A backslash may take the next character with it, so the induction is on all shorter lists.
  induction size : chars.length using Nat.strongRecOn generalizing chars with
  | ind n ih =>
    cases chars with
    | nil => rfl
    | cons char chars =>
      have shorter : chars.length < n := by simp [← size]
      by_cases backslash : char = '\\'
      · subst backslash
        cases chars with
        | nil => decide
        | cons next rest =>
          have again := ih _ shorter (next :: rest) rfl
          by_cases special : next = '\'' ∨ next = '\\'
          · have more : (Token.unescape (ofChars rest)).isUtf8 = true :=
              ih rest.length (by simp only [List.length_cons] at shorter; omega) rest rfl
            rcases special with rfl | rfl
            · exact isUtf8_append (s := [ascii '\'']) (by decide) more
            · exact isUtf8_append (s := [ascii '\\']) (by decide) more
          · obtain ⟨unquoted, plain⟩ := not_or.mp special
            obtain ⟨a, tail, bytes, -, -⟩ := (encodes_utf8EncodeChar next).cons
            have first : a ∈ String.utf8EncodeChar next := by simp [bytes]
            have shape : ofChars (next :: rest) = a :: (tail ++ ofChars rest) := by
              rw [ofChars, List.flatMap_cons, bytes]
              rfl
            change (Token.unescape (ascii '\\' :: ofChars (next :: rest))).isUtf8 = true
            rw [shape] at again ⊢
            rw [Token.unescape, if_neg]
            · exact isUtf8_append (s := [ascii '\\']) (by decide) again
            · rintro ⟨-, same | same⟩
              · exact ne_ascii_of_mem_encode (by decide) unquoted a first same
              · exact ne_ascii_of_mem_encode (by decide) plain a first same
      · have plain := ne_ascii_of_mem_encode (by decide) backslash
        change (Token.unescape (String.utf8EncodeChar char ++ ofChars chars)).isUtf8 = true
        rw [unescape_append plain]
        refine isUtf8_append ?_ (ih _ shorter chars rfl)
        simpa [ofChars] using isUtf8_ofChars [char]

end Unescape

end Text

namespace Lexer

/-- How a token ends before what follows it. -/
inductive Ends (operators : Text) (token : Token) (rest : Text) : Prop where
  | ascii (body : Text) {b : UInt8} (low : b < 0x80) (text : token.text = body ++ [b]) :
      Ends operators token rest
  | operator (kind : token.kind = .operator) : Ends operators token rest
  | word (stops : ∀ b ∈ rest.head?, inWord operators b = false) : Ends operators token rest

theorem stringTail_append (rest : Text) :
    (stringTail rest).1 ++ rest.drop (stringTail rest).1.length = rest := by
  fun_induction stringTail rest <;> simp_all

theorem stringTail_closed {rest : Text} (closed : (stringTail rest).2 = true) :
    ∃ body, (stringTail rest).1 = body ++ [Text.ascii '\''] := by
  fun_induction stringTail rest with
  | case1 => cases closed
  | case2 => cases closed
  | case3 => exact ⟨[], rfl⟩
  | case4 => cases closed
  | case5 => cases closed
  | case6 c rest nonzero _ _ ih =>
    obtain ⟨body, shape⟩ := ih closed
    exact ⟨_ :: c :: body, by rw [shape]; rfl⟩
  | case7 b rest zero _ _ ih =>
    obtain ⟨body, shape⟩ := ih closed
    exact ⟨b :: body, by rw [shape]; rfl⟩

theorem operatorTail_append (operators rest : Text) :
    operatorTail operators rest ++ rest.drop (operatorTail operators rest).length = rest := by
  fun_induction operatorTail operators rest <;> simp_all

theorem emit_eq {l : Lexer} {token : Token} (found : l.emit kind text = (.ok token, after)) :
    token.kind = kind ∧ token.text = text ∧ after.rest = l.rest.drop text.length := by
  cases found
  exact ⟨rfl, rfl, rfl⟩

theorem inWord_head_dropWhile (operators rest : Text) :
    ∀ b ∈ (rest.dropWhile (inWord operators)).head?, inWord operators b = false := by
  intro b head
  cases shape : rest.dropWhile (inWord operators) with
  | nil =>
    rw [shape] at head
    cases head
  | cons first others =>
    have filled : rest.dropWhile (inWord operators) ≠ [] := by simp [shape]
    have stops := List.head_dropWhile_not (inWord operators) filled
    rw [shape] at head
    cases head
    simpa [shape] using stops

/-- A word goes as far as it can. -/
theorem word_append (operators rest : Text) {b : UInt8}
    (inside : isSign b = true ∨ inWord operators b = true) : ∃ after, b :: rest = word operators b rest ++ after ∧
      ∀ b ∈ after.head?, inWord operators b = false := by
  refine ⟨rest.dropWhile (inWord operators), ?_, inWord_head_dropWhile operators rest⟩
  rw [word]
  split
  · simp
  · rename_i unsigned
    have inWord := inside.resolve_left unsigned
    simp [inWord]

theorem lt_of_isSpace {b : UInt8} (space : isSpace b = true) : b < 0x80 := by
  simp only [isSpace, Bool.or_eq_true, beq_iff_eq, Bool.and_eq_true, decide_eq_true_eq] at space
  rcases space with rfl | ⟨-, low⟩
  · decide
  · exact UInt8.lt_of_le_of_lt low (by decide)

section Token

variable {l after : Lexer} {token : Token} {b : UInt8} {rest : Text}

theorem mark_ends (shape : l.rest = b :: rest) (low : b < 0x80)
    (found : l.emit kind [b] = (.ok token, after)) :
    l.rest = token.text ++ after.rest ∧ Ends l.operators token after.rest := by
  obtain ⟨-, text, left⟩ := emit_eq found
  rw [text, left, shape]
  exact ⟨rfl, .ascii [] low text⟩

theorem word_ends (shape : l.rest = b :: rest) (inside : isSign b = true ∨ inWord l.operators b = true)
    (found : l.emit .word (word l.operators b rest) = (.ok token, after)) :
    l.rest = token.text ++ after.rest ∧ Ends l.operators token after.rest := by
  obtain ⟨-, text, left⟩ := emit_eq found
  obtain ⟨behind, whole, stops⟩ := word_append l.operators rest inside
  have same : after.rest = behind := by
    rw [left, shape, whole, List.drop_left]
  rw [text, same, shape]
  exact ⟨whole, .word stops⟩

/-- A token is the start of the text, and ends where it can be told from what follows. -/
theorem token_ends (found : l.token = (.ok token, after))
    (unblank : ∀ b rest, l.rest = b :: rest → isSpace b = false) (more : token.kind ≠ .eof) :
    l.rest = token.text ++ after.rest ∧ Ends l.operators token after.rest := by
  unfold Lexer.token at found
  split at found
  · cases found
    exact absurd rfl more
  rename_i b rest shape
  have space := unblank b rest shape
  split at found
  · cases found
    exact absurd rfl more
  rename_i zero
  split at found
  · rename_i opening
    exact mark_ends shape (by rw [opening]; decide) found
  rename_i opening
  split at found
  · rename_i closing
    exact mark_ends shape (by rw [closing]; decide) found
  rename_i closing
  split at found
  · rename_i comma
    exact mark_ends shape (by rw [comma]; decide) found
  rename_i comma
  split at found
  · rename_i quote
    split at found
    · rename_i closed
      obtain ⟨-, text, left⟩ := emit_eq found
      obtain ⟨body, ends⟩ := stringTail_closed closed
      rw [left, shape, text]
      refine ⟨?_, .ascii (b :: body) (by decide : Text.ascii '\'' < 0x80) (by rw [text, ends]; rfl)⟩
      simp [stringTail_append]
    · cases found
  rename_i quote
  split at found
  · rename_i signed
    simp only [Bool.and_eq_true] at signed
    exact word_ends shape (.inl signed.1.1) found
  split at found
  · obtain ⟨kind, text, left⟩ := emit_eq found
    rw [left, shape, text]
    refine ⟨?_, .operator kind⟩
    simp [operatorTail_append]
  · rename_i plain
    refine word_ends shape (.inr ?_) found
    simp [inWord, zero, opening, closing, comma, quote, space, plain]

/-- The next token comes after blanks. -/
theorem next_ends (found : l.next = (.ok token, after)) (more : token.kind ≠ .eof) :
    ∃ blanks, (∀ b ∈ blanks, isSpace b = true) ∧ l.rest = blanks ++ (token.text ++ after.rest) ∧
      Ends l.operators token after.rest := by
  obtain ⟨whole, ends⟩ := token_ends (l := l.skipBlanks) found l.skipBlanks_unblank more
  refine ⟨l.rest.takeWhile isSpace, fun b member => List.all_eq_true.mp List.all_takeWhile b member, ?_, ends⟩
  rw [← whole, skipBlanks_rest, List.takeWhile_append_dropWhile]

/-- A byte that is not ASCII starts an operator if operators have it. -/
theorem next_operator (found : l.next = (.ok token, after)) (shape : l.rest = b :: rest)
    (operator : isOperator l.operators b = true) (high : ¬ b < 0x80) :
    token.kind = .operator ∧ token.text.head? = some b := by
  have other : ∀ c : UInt8, c < 0x80 → b ≠ c := by
    rintro c low rfl
    exact high low
  have unblank : isSpace b = false := by
    rw [Bool.eq_false_iff]
    exact fun space => high (lt_of_isSpace space)
  have unsigned : isSign b = false := by
    simp [isSign, other (Text.ascii '-') (by decide), other (Text.ascii '+') (by decide)]
  have start : l.skipBlanks.rest = b :: rest := by
    rw [skipBlanks_rest, shape]
    simp [unblank]
  have emitted : l.next = l.skipBlanks.emit .operator (b :: operatorTail l.operators rest) := by
    rw [next, Lexer.token, start]
    simp only [other 0 (by decide), other (Text.ascii '(') (by decide), other (Text.ascii ')') (by decide),
      other (Text.ascii ',') (by decide), other (Text.ascii '\'') (by decide), unsigned, Bool.false_and,
      Bool.false_eq_true, ↓reduceIte]
    rw [if_pos]
    · rfl
    · exact operator
  obtain ⟨kind, text, -⟩ := emit_eq (emitted.symm.trans found)
  exact ⟨kind, by rw [text]; rfl⟩

end Token

theorem lt_or_isOperator {chars : Text} {b : UInt8} (stops : inWord chars b = false) :
    b < 0x80 ∨ isOperator chars b = true := by
  simp only [inWord, Bool.and_eq_false_iff, bne_eq_false_iff_eq, Bool.not_eq_false'] at stops
  rcases stops with (((((rfl | space) | rfl) | rfl) | rfl) | rfl) | operator
  · exact .inl (by decide)
  · exact .inl (lt_of_isSpace space)
  · exact .inl (by decide)
  · exact .inl (by decide)
  · exact .inl (by decide)
  · exact .inl (by decide)
  · exact .inr operator

/-- Where a word stops, a character starts: an ASCII one, or the first one of an operator. -/
theorem isTail_of_stops {l : Lexer} (ran : l.run = .ok (tokens, ending))
    (valid : ∀ token ∈ tokens, token.kind = .operator → token.text.isUtf8 = true)
    (stops : ∀ b ∈ l.rest.head?, inWord l.operators b = false) :
    ∀ b ∈ l.rest.head?, Text.isTail b = false := by
  intro b head
  by_cases low : b < 0x80
  · exact Text.isTail_of_lt low
  have operator := (lt_or_isOperator (stops b head)).resolve_left low
  obtain ⟨rest, shape⟩ := List.head?_eq_some_iff.mp head
  rw [run] at ran
  split at ran
  · cases ran
  · rename_i token after found
    obtain ⟨kind, first⟩ := next_operator found shape operator low
    obtain ⟨bytes, text⟩ := List.head?_eq_some_iff.mp first
    rw [dif_neg (by simp [kind])] at ran
    obtain ⟨⟨others, _⟩, -, same⟩ := map_eq_ok.mp ran
    cases same
    have starts := valid token (.head _) kind
    rw [text] at starts
    exact Text.isTail_head starts

/-- The tokens of a valid text are valid if its operators are. -/
theorem run_isUtf8 {l : Lexer} (ran : l.run = .ok (tokens, ending)) (valid : l.rest.isUtf8 = true)
    (operators : ∀ token ∈ tokens, token.kind = .operator → token.text.isUtf8 = true) :
    ∀ token ∈ tokens, token.text.isUtf8 = true := by
  fun_induction run l generalizing tokens with
  | case1 => cases ran
  | case2 l token after found finished =>
    cases ran
    exact List.forall_mem_nil _
  | case3 l token after found more shorter ih =>
    obtain ⟨⟨rest, _⟩, ran, same⟩ := map_eq_ok.mp ran
    cases same
    obtain ⟨first, others⟩ := List.forall_mem_cons.mp operators
    obtain ⟨blanks, spaces, whole, ends⟩ := next_ends found more
    rw [whole] at valid
    have blank := Text.isUtf8_of_ascii fun b member => lt_of_isSpace (spaces b member)
    have unblank := Text.isUtf8_append_right blank valid
    have cut : token.text.isUtf8 = true ∧ after.rest.isUtf8 = true := by
      cases ends with
      | ascii body low text =>
        rw [text] at unblank ⊢
        obtain ⟨before, behind⟩ := Text.isUtf8_cut_after low unblank
        exact ⟨Text.isUtf8_append before (Text.isUtf8_of_ascii (by simp [low])), behind⟩
      | operator kind => exact ⟨first kind, Text.isUtf8_append_right (first kind) unblank⟩
      | word stops =>
        rw [← next_operators found] at stops
        exact Text.isUtf8_cut unblank (isTail_of_stops ran others stops)
    exact List.forall_mem_cons.mpr ⟨cut.1, ih ran cut.2 others⟩

/-- What a valid word or string stands for is valid. -/
theorem Origin.isUtf8_value {operators : Text} {last : TokenKind} {token : Token}
    (origin : Origin operators last token) (kind : token.IsListValue) (valid : token.text.isUtf8 = true) :
    token.value.isUtf8 = true := by
  rcases kind with word | string
  · have same : token.value = token.text := by
      rw [Token.value]
      simp [word]
    rwa [same]
  · cases origin with
    | mark other => rcases other with other | other | other | other <;> cases string.symm.trans other
    | number other _ _ _ _ => cases string.symm.trans other
    | word other _ _ => cases string.symm.trans other
    | @string rest _ closed text =>
      obtain ⟨body, ends⟩ := stringTail_closed closed
      rw [ends] at text
      have quoted : token.value = Token.unescape body := by
        rw [Token.value, string, text]
        cases body with
        | nil => rfl
        | cons first body =>
          change Token.unescape (first :: body ++ [Text.ascii '\'']).dropLast = _
          rw [List.dropLast_concat]
      rw [text, ← List.cons_append, ← List.append_nil (_ ++ _)] at valid
      have low : Text.ascii '\'' < 0x80 := by decide
      have inner := (Text.isUtf8_cut_after low valid).1
      rw [quoted]
      exact Text.isUtf8_unescape (Text.isUtf8_append_right (s := [Text.ascii '\'']) (by decide) inner)

end Lexer

end RecordQuery
