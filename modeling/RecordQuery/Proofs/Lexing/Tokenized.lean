import Mathlib.Data.List.TakeWhile
import RecordQuery.Proofs.Lexing.Tiling

/-! A text falls into tokens, which tile it up to its first zero byte, or it has an opening quote that is
never closed. For the latter, a token is shown to be the same whatever follows it, so long as that does not
go on with the token. -/
namespace RecordQuery

namespace Lexer

/-- What may stand between quotes: a backslash takes the next byte with it, and no byte is zero. -/
inductive Quotable : Text → Prop where
  | nil : Quotable []
  | plain {b : UInt8} {body : Text} (nonzero : b ≠ 0) (quote : b ≠ Text.ascii '\'')
      (backslash : b ≠ Text.ascii '\\') (rest : Quotable body) : Quotable (b :: body)
  | escaped {b : UInt8} {body : Text} (nonzero : b ≠ 0) (rest : Quotable body) :
      Quotable (Text.ascii '\\' :: b :: body)

theorem Quotable.stringTail {body : Text} (quotable : Quotable body) (after : Text) :
    stringTail (body ++ Text.ascii '\'' :: after) = (body ++ [Text.ascii '\''], true) := by
  have backslash : Text.ascii '\\' ≠ 0 ∧ Text.ascii '\\' ≠ Text.ascii '\'' := by decide
  induction quotable with
  | nil =>
    rw [List.nil_append, Lexer.stringTail.eq_def]
    rfl
  | plain nonzero quote other _ ih =>
    rw [List.cons_append, Lexer.stringTail.eq_def]
    simp [nonzero, quote, other, ih]
  | escaped nonzero _ ih =>
    rw [List.cons_append, List.cons_append, Lexer.stringTail.eq_def]
    simp [backslash, nonzero, ih]

theorem quotable_of_closed {rest : Text} (closed : (stringTail rest).2 = true) :
    ∃ body after, Quotable body ∧ rest = body ++ Text.ascii '\'' :: after := by
  fun_induction Lexer.stringTail rest with
  | case1 => cases closed
  | case2 => cases closed
  | case3 rest => exact ⟨[], rest, .nil, rfl⟩
  | case4 => cases closed
  | case5 => cases closed
  | case6 c rest nonzero _ _ ih =>
    obtain ⟨body, after, quotable, rfl⟩ := ih closed
    exact ⟨_ :: c :: body, after, .escaped nonzero quotable, rfl⟩
  | case7 b rest nonzero quote backslash ih =>
    obtain ⟨body, after, quotable, rfl⟩ := ih closed
    exact ⟨b :: body, after, .plain nonzero quote backslash quotable, rfl⟩

theorem closed_iff_quotable {rest : Text} :
    (stringTail rest).2 = true ↔ ∃ body after, Quotable body ∧ rest = body ++ Text.ascii '\'' :: after := by
  constructor
  · exact quotable_of_closed
  · rintro ⟨body, after, quotable, rfl⟩
    rw [quotable.stringTail]

/-- A string that is closed does not depend on what follows it. -/
theorem stringTail_follow {read rest : Text} (follow : Text) (found : stringTail (read ++ rest) = (read, true)) :
    stringTail (read ++ follow) = (read, true) := by
  obtain ⟨body, after, quotable, whole⟩ := quotable_of_closed (congrArg Prod.snd found)
  rw [whole, quotable.stringTail] at found
  cases found
  simp [quotable.stringTail]

/-- What follows a token may be put in the place of what did: it goes on with the token no more than that. -/
structure Follows (operators rest follow : Text) : Prop where
  word : rest.takeWhile (inWord operators) = [] → follow.takeWhile (inWord operators) = []
  operator : operatorTail operators rest = [] → operatorTail operators follow = []
  digit : startsWithDigit follow = true → startsWithDigit rest = true
  /-- A sign is a word of its own only before a digit that is an operator character. -/
  number : startsWithDigit rest = true → rest.takeWhile (inWord operators) = [] → startsWithDigit follow = true

section Follow

variable {operators rest follow read : Text}

theorem takeWhile_eq_left_iff {p : UInt8 → Bool} :
    (read ++ rest).takeWhile p = read ↔ (∀ b ∈ read, p b = true) ∧ rest.takeWhile p = [] := by
  constructor
  · intro found
    have inside : ∀ b ∈ read, p b = true := fun b member => by
      rw [← found] at member
      exact List.all_eq_true.mp List.all_takeWhile b member
    rw [List.takeWhile_append_of_pos inside] at found
    exact ⟨inside, List.append_cancel_left (found.trans (List.append_nil read).symm)⟩
  · rintro ⟨inside, empty⟩
    rw [List.takeWhile_append_of_pos inside, empty, List.append_nil]

theorem Follows.takeWhile (follows : Follows operators rest follow)
    (found : (read ++ rest).takeWhile (inWord operators) = read) :
    (read ++ follow).takeWhile (inWord operators) = read := by
  obtain ⟨inside, empty⟩ := takeWhile_eq_left_iff.mp found
  exact takeWhile_eq_left_iff.mpr ⟨inside, follows.word empty⟩

theorem Follows.operatorTail (follows : Follows operators rest follow)
    (found : operatorTail operators (read ++ rest) = read) :
    operatorTail operators (read ++ follow) = read := by
  induction read with
  | nil => exact follows.operator found
  | cons b read ih =>
    rw [List.cons_append, Lexer.operatorTail] at found ⊢
    split at found
    · rename_i goes
      rw [ih (List.cons.inj found).2]
      have same : (isOperator operators b && !(isSign b && startsWithDigit (read ++ follow))) = true := by
        cases read with
        | cons c read => exact goes
        | nil =>
          have digit := follows.digit
          simp only [List.nil_append, Bool.and_eq_true, Bool.not_eq_true', Bool.and_eq_false_iff] at goes ⊢
          refine ⟨goes.1, goes.2.imp_right ?_⟩
          intro unstarted
          exact Bool.eq_false_iff.mpr fun starts => by simp [digit starts] at unstarted
      rw [if_pos same]
    · cases found

theorem emit_inj {l : Lexer} {kind other : TokenKind} {text others : Text}
    (same : l.emit kind text = l.emit other others) : kind = other ∧ text = others := by
  simp only [emit, Prod.mk.injEq, Except.ok.injEq, Token.mk.injEq, and_true] at same
  exact same.1

theorem word_follow (follows : Follows operators rest follow)
    (found : word operators b (read ++ rest) = b :: read) : word operators b (read ++ follow) = b :: read := by
  rw [word] at found ⊢
  split at found
  · rename_i signed
    rw [if_pos signed, follows.takeWhile (List.cons.inj found).2]
  · rename_i unsigned
    rw [← List.cons_append] at found
    rw [if_neg unsigned, ← List.cons_append]
    exact follows.takeWhile found

theorem Follows.digitAfter (follows : Follows operators rest follow) (read : Text)
    (digit : startsWithDigit (read ++ follow) = true) : startsWithDigit (read ++ rest) = true := by
  cases read with
  | nil => exact follows.digit digit
  | cons b read => exact digit

/-- A number is known from its first digit unless that is no part of it. -/
theorem Follows.numberAfter (follows : Follows operators rest follow)
    (digit : startsWithDigit (read ++ rest) = true) (found : (read ++ rest).takeWhile (inWord operators) = read) :
    startsWithDigit (read ++ follow) = true := by
  cases read with
  | nil => exact follows.number digit found
  | cons b read => exact digit

/-- A lexer that stands before the same token takes it, whatever follows. -/
theorem token_follow {l : Lexer} (other : Lexer) (found : l.token = l.emit kind text) (filled : text ≠ [])
    (shape : l.rest = text ++ rest) (follows : Follows l.operators rest follow)
    (again : other.rest = text ++ follow) (operators : other.operators = l.operators)
    (last : other.last = l.last) : other.token = other.emit kind text := by
  cases text with
  | nil => exact absurd rfl filled
  | cons b read =>
    rw [token, shape] at found
    rw [token, again]
    simp only [List.cons_append, operators, last] at found ⊢
    split at found
    · cases congrArg Prod.fst found
    rename_i zero
    rw [if_neg zero]
    split at found
    · rename_i opening
      obtain ⟨rfl, same⟩ := emit_inj found
      rw [if_pos opening, same]
    rename_i opening
    rw [if_neg opening]
    split at found
    · rename_i closing
      obtain ⟨rfl, same⟩ := emit_inj found
      rw [if_pos closing, same]
    rename_i closing
    rw [if_neg closing]
    split at found
    · rename_i comma
      obtain ⟨rfl, same⟩ := emit_inj found
      rw [if_pos comma, same]
    rename_i comma
    rw [if_neg comma]
    split at found
    · rename_i quote
      rw [if_pos quote]
      split at found
      · rename_i closed
        obtain ⟨rfl, same⟩ := emit_inj found
        have string := stringTail_follow follow (Prod.ext (List.cons.inj same).2 closed)
        rw [string, if_pos rfl]
      · cases congrArg Prod.fst found
    rename_i quote
    rw [if_neg quote]
    split at found
    · rename_i number
      simp only [Bool.and_eq_true] at number
      obtain ⟨⟨signed, digit⟩, fresh⟩ := number
      obtain ⟨rfl, same⟩ := emit_inj found
      have inside : (read ++ rest).takeWhile (inWord l.operators) = read := by
        rw [word, if_pos signed] at same
        exact (List.cons.inj same).2
      rw [if_pos (by simp [signed, follows.numberAfter digit inside, fresh]), word_follow follows same]
    rename_i number
    have unsigned : ¬(isSign b && startsWithDigit (read ++ follow) && beforeValue l.last) = true := by
      intro signed
      simp only [Bool.and_eq_true] at signed
      exact number (by simp [signed.1.1, follows.digitAfter read signed.1.2, signed.2])
    rw [if_neg unsigned]
    split at found
    · rename_i operator
      obtain ⟨rfl, same⟩ := emit_inj found
      rw [if_pos operator, follows.operatorTail (List.cons.inj same).2]
    · rename_i plain
      obtain ⟨rfl, same⟩ := emit_inj found
      rw [if_neg plain, word_follow follows same]

/-- The next token is found again after other blanks and before what may follow it. -/
theorem next_follow {l after : Lexer} (other : Lexer) {token : Token} {blanks : Text}
    (found : l.next = (.ok token, after)) (more : token.kind ≠ .eof)
    (follows : Follows l.operators after.rest follow) (blank : ∀ b ∈ blanks, isSpace b = true)
    (again : other.rest = blanks ++ (token.text ++ follow)) (operators : other.operators = l.operators)
    (last : other.last = l.last) :
    other.next = (.ok ⟨token.kind, token.text, some (other.position.advance blanks)⟩,
      ⟨l.operators, follow, (other.position.advance blanks).advance token.text, token.kind⟩) := by
  obtain ⟨emitted, whole, filled, -⟩ := emits_of_next found more
  have unblank : (token.text ++ follow).takeWhile isSpace = [] := by
    obtain ⟨b, read, text⟩ := List.exists_cons_of_ne_nil filled
    rw [text] at whole ⊢
    have unblank : isSpace b = false := l.skipBlanks_unblank b _ whole
    exact List.takeWhile_cons_of_neg (by simp [unblank])
  have skipped : other.rest.takeWhile isSpace = blanks := by
    rw [again, takeWhile_eq_left_iff]
    exact ⟨blank, unblank⟩
  have stands : other.skipBlanks = ⟨l.operators, token.text ++ follow, other.position.advance blanks, l.last⟩ := by
    rw [skipBlanks, skipped, skip, again, List.drop_left, operators, last]
  have takes := token_follow other.skipBlanks emitted filled whole follows (congrArg Lexer.rest stands) operators last
  rw [next, takes, stands, emit, skip, List.drop_left]

end Follow

/-- What comes before a quote may come before the end instead. -/
theorem follows_quote (operators kept rest : Text) : Follows operators (kept ++ Text.ascii '\'' :: rest) kept := by
  have digit (kept : Text) : startsWithDigit (kept ++ Text.ascii '\'' :: rest) = startsWithDigit kept := by
    cases kept <;> rfl
  refine ⟨?_, ?_, ?_, ?_⟩
  · intro empty
    cases kept with
    | nil => rfl
    | cons b kept =>
      rw [List.cons_append, List.takeWhile_cons] at empty
      rw [List.takeWhile_cons]
      split at empty
      · cases empty
      · rename_i stops
        rw [if_neg stops]
  · intro empty
    cases kept with
    | nil => rfl
    | cons b kept =>
      rw [List.cons_append, operatorTail, digit] at empty
      rw [operatorTail]
      split at empty
      · cases empty
      · rename_i stops
        rw [if_neg stops]
  · rw [digit]
    exact id
  · rw [digit]
    exact fun starts _ => starts

/-- A text of blanks has no tokens. -/
theorem run_blank {l : Lexer} (blank : ∀ b ∈ l.rest, isSpace b = true) : ∃ ending, l.run = .ok ([], ending) := by
  have empty : l.skipBlanks.rest = [] := by
    rw [skipBlanks_rest]
    exact List.dropWhile_eq_nil_iff.mpr blank
  have ended : l.next = (.ok ⟨.eof, [], some l.skipBlanks.position⟩, l.skipBlanks) := by
    rw [next, token, empty]
  exact ⟨_, run_end ended rfl⟩

/-- A text without tokens has an opening quote that is not closed: what stands before it has tokens. -/
theorem run_error {l : Lexer} (failed : l.run = .error error) :
    ∃ before rest tokens ending, l.rest = before ++ Text.ascii '\'' :: rest ∧ (∀ b ∈ before, b ≠ 0) ∧
      (⟨l.operators, before, l.position, l.last⟩ : Lexer).run = .ok (tokens, ending) ∧
      (stringTail rest).2 = false ∧
      error = ⟨some (l.position.advance before), Text.ascii '\'' :: rest, .unterminatedString⟩ := by
  fun_induction run l with
  | case1 l error after found =>
    cases failed
    have blank : ∀ b ∈ l.rest.takeWhile isSpace, isSpace b = true :=
      fun b => List.all_eq_true.mp List.all_takeWhile b
    cases steps l.skipBlanks_unblank with
    | ended _ finished => cases found.symm.trans finished
    | @failed rest opens unclosed failed =>
      cases found.symm.trans failed
      obtain ⟨ending, ran⟩ := run_blank (l := ⟨l.operators, l.rest.takeWhile isSpace, l.position, l.last⟩) blank
      refine ⟨_, rest, [], ending, ?_, fun b member => ne_zero_of_isSpace (blank b member), ran, unclosed, ?_⟩
      · rw [← opens, skipBlanks_rest, List.takeWhile_append_dropWhile]
      · rw [opens]
        rfl
    | emits _ _ _ _ emitted => cases found.symm.trans emitted
  | case2 => cases failed
  | case3 l token after found more shorter ih =>
    cases ran : after.run with
    | ok result =>
      rw [ran] at failed
      cases failed
    | error cause =>
      rw [ran] at failed
      cases failed
      obtain ⟨before, rest, tokens, ending, left, nonzero, again, unclosed, rfl⟩ := ih ran
      obtain ⟨blanks, blank, whole, -, goes, -, texts⟩ := next_takes found more
      rw [next_operators found, goes, next_last found more] at again
      have steps := next_follow ⟨l.operators, blanks ++ (token.text ++ before), l.position, l.last⟩ found more
        (left ▸ follows_quote l.operators before rest) blank rfl rfl rfl
      have runs : (⟨l.operators, blanks ++ (token.text ++ before), l.position, l.last⟩ : Lexer).run =
          .ok (⟨token.kind, token.text, some (l.position.advance blanks)⟩ :: tokens, ending) := by
        rw [run_step steps more, again]
        rfl
      refine ⟨_, rest, _, ending, ?_, ?_, runs, unclosed, ?_⟩
      · rw [whole, left]
        simp
      · simp only [List.mem_append]
        rintro b (member | member | member)
        · exact ne_zero_of_isSpace (blank b member)
        · exact texts b member
        · exact nonzero b member
      · rw [goes, Position.advance_append, Position.advance_append]

namespace Tiles

variable {place : Position} {text : Text} {tokens : List Token}

theorem bounds (tiles : Tiles place text tokens) : ∀ token ∈ tokens, token.text ≠ [] ∧
    ∃ here ∈ token.position, place.offset ≤ here.offset ∧
      here.offset + token.text.length ≤ place.offset + text.length := by
  induction tiles with
  | nil => exact List.forall_mem_nil _
  | @cons place blanks token text tokens blank stands filled tiles ih =>
    simp only [Position.offset_advance] at ih
    refine List.forall_mem_cons.mpr ⟨⟨filled, _, stands, ?_, ?_⟩, ?_⟩
    · rw [Position.offset_advance]
      omega
    · simp only [Position.offset_advance, List.length_append]
      omega
    · intro other member
      obtain ⟨written, there, found, from_, upto⟩ := ih other member
      refine ⟨written, there, found, ?_, ?_⟩
      · omega
      · simp only [List.length_append]
        omega

/-- No two tokens overlap. -/
theorem ordered (tiles : Tiles place text tokens) : tokens.Pairwise fun first second =>
    ∃ here ∈ first.position, ∃ there ∈ second.position,
      here.offset < there.offset ∧ here.offset + first.text.length ≤ there.offset := by
  induction tiles with
  | nil => exact .nil
  | @cons place blanks token text tokens blank stands filled tiles ih =>
    refine .cons ?_ ih
    intro other member
    obtain ⟨-, there, found, from_, -⟩ := tiles.bounds other member
    rw [Position.offset_advance] at from_
    have written := List.length_pos_iff.mpr filled
    exact ⟨_, stands, there, found, by omega, from_⟩

end Tiles

end Lexer

theorem Text.length_beforeZero (t : Text) : t.beforeZero.length = t.idxOf 0 := by
  induction t with
  | nil => rfl
  | cons b t ih =>
    by_cases zero : b = 0
    · subst zero
      simp [beforeZero]
    · rw [beforeZero_cons zero, List.length_cons, ih, List.idxOf_cons_ne _ zero]

/-- The tokens stand in the text one after another, end by the limit, and leave out only blanks before it. -/
structure TileUpTo (tokens : List Token) (text : Text) (limit : Nat) : Prop where
  placed : ∀ token ∈ tokens, token.text ≠ [] ∧ ∃ place ∈ token.position,
    (text.drop place.offset).take token.text.length = token.text ∧ place.offset + token.text.length ≤ limit
  ordered : tokens.Pairwise fun first second => ∃ here ∈ first.position, ∃ there ∈ second.position,
    here.offset < there.offset ∧ here.offset + first.text.length ≤ there.offset
  covered : ∀ offset < limit, (∃ token ∈ tokens, token.Spans offset) ∨ ∃ b ∈ text[offset]?, Lexer.isSpace b = true

theorem Token.StandsIn.slice {token : Token} {text : Text} (stands : token.StandsIn text)
    (here : place ∈ token.position) : (text.drop place.offset).take token.text.length = token.text := by
  obtain ⟨_, found, before, after, rfl, starts⟩ := stands
  cases Option.some.inj (here.symm.trans found)
  rw [← starts, List.drop_left, List.take_left]

theorem tileUpTo_of_tokenize {text operators : Text} (found : tokenize text operators = .ok tokens) :
    TileUpTo tokens text (text.idxOf 0) := by
  obtain ⟨⟨_, ending⟩, ran, rfl⟩ := map_eq_ok.mp found
  have tiles := Lexer.run_tiles ran
  have stands := standsIn_of_run ran
  rw [← Text.length_beforeZero]
  refine ⟨?_, tiles.ordered, ?_⟩
  · intro token member
    obtain ⟨written, place, here, -, upto⟩ := tiles.bounds token member
    refine ⟨written, place, here, (stands token member).slice here, ?_⟩
    simpa [Lexer.start, Position.start] using upto
  · intro offset inside
    obtain ⟨rest, whole⟩ := text.beforeZero_prefix
    have byte : text.beforeZero[offset]? = some text.beforeZero[offset] := List.getElem?_eq_getElem inside
    refine (covers_beforeZero ran _ _ byte).imp_right fun blank => ⟨_, ?_, blank⟩
    rw [← List.getElem?_append_left inside, whole] at byte
    exact byte

/-- A text has tokens, which tile it up to its first zero byte, or it has a quote that opens and does not close:
what stands before it has tokens, and from it on the text is what the error quotes. -/
theorem tokenize_tiles (text operators : Text) :
    match tokenize text operators with
    | .ok tokens => TileUpTo tokens text (text.idxOf 0)
    | .error error => ∃ before rest tokens, text = before ++ Text.ascii '\'' :: rest ∧ 0 ∉ before ∧
        tokenize before operators = .ok tokens ∧ TileUpTo tokens before before.length ∧
        (¬∃ body after, Lexer.Quotable body ∧ rest = body ++ Text.ascii '\'' :: after) ∧
        error = ⟨some (Position.start.advance before), Text.ascii '\'' :: rest, .unterminatedString⟩ := by
  split
  · rename_i tokens found
    exact tileUpTo_of_tokenize found
  · rename_i error failed
    cases ran : (Lexer.start text operators).run with
    | ok result =>
      rw [tokenize, ran] at failed
      cases failed
    | error cause =>
      rw [tokenize, ran] at failed
      cases failed
      obtain ⟨before, rest, tokens, ending, whole, nonzero, again, unclosed, quoted⟩ := Lexer.run_error ran
      have zero : 0 ∉ before := fun member => nonzero 0 member rfl
      have tokenized : tokenize before operators = .ok tokens := map_eq_ok.mpr ⟨_, again, rfl⟩
      have tiles := tileUpTo_of_tokenize tokenized
      rw [List.idxOf_eq_length zero] at tiles
      refine ⟨before, rest, tokens, whole, zero, tokenized, tiles, ?_, quoted⟩
      rw [← Lexer.closed_iff_quotable, unclosed]
      exact Bool.false_ne_true

end RecordQuery
