import RecordQuery.Proofs.Compile.Accepted
import RecordQuery.Proofs.Document.RoundTrip
import RecordQuery.Proofs.Lexing.Utf8
import RecordQuery.Proofs.Lexing.Words

/-! The tokens of a text stand in it one after another, with nothing but blanks between them, up to the
first zero byte. What follows that byte is no part of the query, whatever it is. -/
namespace RecordQuery

/-- The text before its first zero byte. -/
def Text.beforeZero (t : Text) : Text := t.takeWhile (· ≠ 0)

namespace Text

theorem beforeZero_append {s : Text} (nonzero : ∀ b ∈ s, b ≠ 0) (t : Text) :
    (s ++ t).beforeZero = s ++ t.beforeZero := by
  apply List.takeWhile_append_of_pos
  intro b member
  simpa using nonzero b member

theorem beforeZero_cons {b : UInt8} (nonzero : b ≠ 0) (t : Text) :
    beforeZero (b :: t) = b :: t.beforeZero :=
  List.takeWhile_cons_of_pos (by simpa using nonzero)

theorem ne_zero_of_mem_beforeZero {t : Text} (member : b ∈ t.beforeZero) : b ≠ 0 := by
  simpa using List.all_eq_true.mp List.all_takeWhile b member

theorem beforeZero_of_nonzero {t : Text} (nonzero : ∀ b ∈ t, b ≠ 0) : t.beforeZero = t := by
  simpa [beforeZero] using beforeZero_append nonzero []

theorem beforeZero_prefix (t : Text) : t.beforeZero <+: t := List.takeWhile_prefix _

theorem getElem?_length_beforeZero {t : Text} (zero : 0 ∈ t) : t[t.beforeZero.length]? = some 0 := by
  induction t with
  | nil => cases zero
  | cons b t ih =>
    by_cases here : b = 0
    · subst here
      rfl
    · have later : 0 ∈ t := (List.mem_cons.mp zero).resolve_left (Ne.symm here)
      rw [beforeZero_cons here, List.length_cons, List.getElem?_cons_succ]
      exact ih later

/-- Whatever stands behind the zero byte. -/
theorem beforeZero_beforeZero_append (t ignored : Text) :
    (t.beforeZero ++ 0 :: ignored).beforeZero = t.beforeZero := by
  rw [beforeZero_append fun _ => ne_zero_of_mem_beforeZero]
  simp [beforeZero]

end Text

/-- The byte at this offset belongs to the token. -/
def Token.Spans (token : Token) (offset : Nat) : Prop :=
  ∃ place ∈ token.position, place.offset ≤ offset ∧ offset < place.offset + token.text.length

/-- The token stands in the text at its place. -/
def Token.StandsIn (token : Token) (text : Text) : Prop :=
  ∃ place ∈ token.position, ∃ before after, text = before ++ (token.text ++ after) ∧
    before.length = place.offset

theorem Position.advance_append (place : Position) (read more : Text) :
    place.advance (read ++ more) = (place.advance read).advance more :=
  List.foldl_append

theorem Position.offset_advance (place : Position) (read : Text) :
    (place.advance read).offset = place.offset + read.length := by
  induction read generalizing place with
  | nil => rfl
  | cons b read ih =>
    have step : (place.step b).offset = place.offset + 1 := by
      unfold Position.step
      split <;> rfl
    rw [advance, List.foldl_cons, ← advance, ih, step, List.length_cons]
    omega

namespace Lexer

theorem ne_zero_of_inWord {operators : Text} (inside : inWord operators b = true) : b ≠ 0 := by
  intro zero
  simp [inWord, zero] at inside

theorem ne_zero_of_isSpace (space : isSpace b = true) : b ≠ 0 := by
  rintro rfl
  cases space

section Zero

variable (operators rest : Text)

theorem word_nonzero (inside : b ≠ 0) : ∀ c ∈ word operators b rest, c ≠ 0 := by
  have run : ∀ t : Text, ∀ c ∈ t.takeWhile (inWord operators), c ≠ 0 := by
    intro t c member
    exact ne_zero_of_inWord (List.all_eq_true.mp List.all_takeWhile c member)
  unfold word
  split
  · exact List.forall_mem_cons.mpr ⟨inside, run rest⟩
  · exact run _

theorem operatorTail_nonzero : ∀ b ∈ operatorTail operators rest, b ≠ 0 := by
  fun_induction operatorTail operators rest with
  | case1 => exact List.forall_mem_nil _
  | case2 b rest operator ih =>
    refine List.forall_mem_cons.mpr ⟨?_, ih⟩
    intro zero
    simp [isOperator, zero] at operator
  | case3 => exact List.forall_mem_nil _

theorem takeWhile_beforeZero {p : UInt8 → Bool} (stops : ∀ b, p b = true → b ≠ 0) :
    rest.beforeZero.takeWhile p = rest.takeWhile p := by
  induction rest with
  | nil => rfl
  | cons b rest ih =>
    by_cases zero : b = 0
    · have stop : p b = false := by
        apply Bool.eq_false_iff.mpr
        intro inside
        exact stops b inside zero
      rw [List.takeWhile_cons_of_neg (by simp [stop]), zero]
      rfl
    · rw [Text.beforeZero_cons zero, List.takeWhile_cons, List.takeWhile_cons, ih]

theorem startsWithDigit_beforeZero : startsWithDigit rest.beforeZero = startsWithDigit rest := by
  cases rest with
  | nil => rfl
  | cons b rest =>
    by_cases zero : b = 0
    · subst zero
      rfl
    · rw [Text.beforeZero_cons zero]
      rfl

theorem word_beforeZero (b : UInt8) : word operators b rest.beforeZero = word operators b rest := by
  have stops : ∀ c, inWord operators c = true → c ≠ 0 := fun _ => ne_zero_of_inWord
  have same := takeWhile_beforeZero rest stops
  rw [word, word, List.takeWhile_cons, List.takeWhile_cons, same]

theorem operatorTail_beforeZero : operatorTail operators rest.beforeZero = operatorTail operators rest := by
  induction rest with
  | nil => rfl
  | cons b rest ih =>
    by_cases zero : b = 0
    · subst zero
      rfl
    · rw [Text.beforeZero_cons zero, operatorTail, operatorTail, ih, startsWithDigit_beforeZero]

theorem stringTail_beforeZero : stringTail rest.beforeZero = stringTail rest := by
  -- A backslash takes two bytes, so the induction is on the recursion of the scan.
  fun_induction stringTail rest with
  | case1 => rfl
  | case2 => rfl
  | case3 rest zero =>
    rw [Text.beforeZero_cons zero, stringTail.eq_def]
    simp [zero]
  | case4 => rfl
  | case5 => rfl
  | case6 c rest nonzero zero quote ih =>
    rw [Text.beforeZero_cons zero, Text.beforeZero_cons nonzero, stringTail.eq_def]
    simp [zero, quote, nonzero, ih]
  | case7 b rest zero quote backslash ih =>
    rw [Text.beforeZero_cons zero, stringTail.eq_def]
    simp [zero, quote, backslash, ih]

end Zero

/-- What a lexer that stands at no blank can do: come to the end, fail, or take a token off its text. -/
inductive Steps (l : Lexer) : Prop where
  | ended (atEnd : ∀ b ∈ l.rest.head?, b = 0) (found : l.token = (.ok ⟨.eof, [], some l.position⟩, l))
  | failed {rest : Text} (opens : l.rest = Text.ascii '\'' :: rest) (unclosed : (stringTail rest).2 = false)
      (found : l.token = (.error ⟨some l.position, l.rest, .unterminatedString⟩,
        l.skip (Text.ascii '\'' :: (stringTail rest).1)))
  | emits (more : kind ≠ .eof) (filled : text ≠ []) (nonzero : ∀ b ∈ text, b ≠ 0) (starts : text <+: l.rest)
      (found : l.token = l.emit kind text)

section Step

variable {l after : Lexer} {token : Token} {b : UInt8} {rest read : Text}

theorem stringTail_starts (b : UInt8) (rest : Text) : b :: (stringTail rest).1 <+: b :: rest :=
  (List.prefix_cons_inj b).mpr ⟨_, stringTail_append rest⟩

theorem operatorTail_starts (operators : Text) (b : UInt8) (rest : Text) :
    b :: operatorTail operators rest <+: b :: rest :=
  (List.prefix_cons_inj b).mpr ⟨_, operatorTail_append operators rest⟩

theorem word_starts (operators : Text) (b : UInt8) (rest : Text) : word operators b rest <+: b :: rest := by
  unfold word
  split
  · exact (List.prefix_cons_inj b).mpr (List.takeWhile_prefix _)
  · exact List.takeWhile_prefix _

theorem steps (unblank : ∀ b rest, l.rest = b :: rest → isSpace b = false) : l.Steps := by
  cases shape : l.rest with
  | nil =>
    apply Steps.ended
    · simp [shape]
    · rw [token, shape]
  | cons b rest =>
    have space := unblank b rest shape
    have found : l.token = l.token := rfl
    nth_rewrite 2 [token] at found
    simp only [shape] at found
    split at found
    · rename_i zero
      exact .ended (by simp [shape, zero]) found
    rename_i zero
    have single : ∀ c ∈ [b], c ≠ 0 := List.forall_mem_singleton.mpr zero
    have mark : [b] <+: l.rest := shape ▸ ⟨rest, rfl⟩
    have word : word l.operators b rest <+: l.rest := shape ▸ word_starts l.operators b rest
    split at found
    · exact .emits (by simp) (List.cons_ne_nil _ _) single mark found
    rename_i opening
    split at found
    · exact .emits (by simp) (List.cons_ne_nil _ _) single mark found
    rename_i closing
    split at found
    · exact .emits (by simp) (List.cons_ne_nil _ _) single mark found
    rename_i comma
    split at found
    · rename_i quote
      split at found
      · exact .emits (by simp) (List.cons_ne_nil _ _)
          (List.forall_mem_cons.mpr ⟨zero, stringTail_nonzero rest⟩) (shape ▸ stringTail_starts b rest) found
      · rename_i unclosed
        subst quote
        exact .failed shape (Bool.not_eq_true _ ▸ unclosed) (shape ▸ found)
    rename_i quote
    split at found
    · rename_i signed
      simp only [Bool.and_eq_true] at signed
      exact .emits (by simp) (word_ne_nil rest (.inl signed.1.1)) (word_nonzero _ _ zero) word found
    split at found
    · exact .emits (by simp) (List.cons_ne_nil _ _)
        (List.forall_mem_cons.mpr ⟨zero, operatorTail_nonzero l.operators rest⟩)
        (shape ▸ operatorTail_starts l.operators b rest) found
    · rename_i plain
      have inside : inWord l.operators b = true := by
        simp [inWord, zero, opening, closing, comma, quote, space, plain]
      exact .emits (by simp) (word_ne_nil rest (.inr inside)) (word_nonzero _ _ zero) word found

/-- A token but the end is taken off what follows the blanks. -/
theorem emits_of_next (found : l.next = (.ok token, after)) (more : token.kind ≠ .eof) :
    l.skipBlanks.token = l.skipBlanks.emit token.kind token.text ∧
      l.skipBlanks.rest = token.text ++ after.rest ∧ token.text ≠ [] ∧ ∀ b ∈ token.text, b ≠ 0 := by
  cases steps l.skipBlanks_unblank with
  | ended _ finished =>
    cases found.symm.trans finished
    exact absurd rfl more
  | failed _ _ failed => cases found.symm.trans failed
  | emits _ filled nonzero starts emitted =>
    cases found.symm.trans emitted
    exact ⟨emitted, (List.prefix_iff_eq_append.mp starts).symm, filled, nonzero⟩

/-- The end token has no text, and comes before a zero byte or where there is no more. -/
theorem ended_of_next (found : l.next = (.ok token, after)) (finished : token.kind = .eof) :
    token.text = [] ∧ ∀ b ∈ l.skipBlanks.rest.head?, b = 0 := by
  cases steps l.skipBlanks_unblank with
  | ended atEnd ended =>
    cases found.symm.trans ended
    exact ⟨rfl, atEnd⟩
  | failed _ _ failed => cases found.symm.trans failed
  | emits more _ _ _ emitted =>
    cases found.symm.trans emitted
    exact absurd finished more

/-- The next token stands after blanks, and the lexer goes on behind it. -/
theorem next_takes (found : l.next = (.ok token, after)) (more : token.kind ≠ .eof) :
    ∃ blanks, (∀ b ∈ blanks, isSpace b = true) ∧ l.rest = blanks ++ (token.text ++ after.rest) ∧
      token.position = some (l.position.advance blanks) ∧
      after.position = (l.position.advance blanks).advance token.text ∧ token.text ≠ [] ∧
      ∀ b ∈ token.text, b ≠ 0 := by
  obtain ⟨emitted, whole, filled, nonzero⟩ := emits_of_next found more
  have taken := found.symm.trans emitted
  refine ⟨l.rest.takeWhile isSpace, fun b => List.all_eq_true.mp List.all_takeWhile b, ?_, ?_, ?_, filled, nonzero⟩
  · rw [← whole, skipBlanks_rest, List.takeWhile_append_dropWhile]
  · exact congrArg Token.position (Except.ok.inj (congrArg Prod.fst taken))
  · exact congrArg (·.2.position) taken

/-- At the end there are only blanks before the first zero byte. -/
theorem next_ended (found : l.next = (.ok token, after)) (finished : token.kind = .eof) :
    ∀ b ∈ l.rest.beforeZero, isSpace b = true := by
  have blank : ∀ b ∈ l.rest.takeWhile isSpace, isSpace b = true :=
    fun b => List.all_eq_true.mp List.all_takeWhile b
  have nonzero : ∀ b ∈ l.rest.takeWhile isSpace, b ≠ 0 :=
    fun b member => ne_zero_of_isSpace (blank b member)
  obtain ⟨-, atEnd⟩ := ended_of_next found finished
  rw [← List.takeWhile_append_dropWhile (p := isSpace) (l := l.rest), Text.beforeZero_append nonzero,
    ← skipBlanks_rest]
  cases shape : l.skipBlanks.rest with
  | nil => simpa [Text.beforeZero] using blank
  | cons b rest =>
    have zero : b = 0 := atEnd b (by simp [shape])
    simpa [zero, Text.beforeZero] using blank

end Step

/-- The tokens follow one another in the text, which starts at the given place, and there are only blanks
before each of them and after the last. -/
inductive Tiles : Position → Text → List Token → Prop where
  | nil (blank : ∀ b ∈ text, isSpace b = true) : Tiles place text []
  | cons {place : Position} {blanks : Text} {token : Token} {text : Text} {tokens : List Token}
      (blank : ∀ b ∈ blanks, isSpace b = true) (stands : token.position = some (place.advance blanks))
      (filled : token.text ≠ []) (rest : Tiles ((place.advance blanks).advance token.text) text tokens) :
      Tiles place (blanks ++ (token.text ++ text)) (token :: tokens)

/-- The tokens of a text make it up, as far as its first zero byte. -/
theorem run_tiles {l : Lexer} (ran : l.run = .ok (tokens, ending)) :
    Tiles l.position l.rest.beforeZero tokens := by
  fun_induction run l generalizing tokens with
  | case1 => cases ran
  | case2 l token after found finished =>
    cases ran
    exact .nil (next_ended found finished)
  | case3 l token after found more shorter ih =>
    obtain ⟨⟨rest, _⟩, ran, same⟩ := map_eq_ok.mp ran
    cases same
    obtain ⟨blanks, blank, whole, stands, goes, filled, nonzero⟩ := next_takes found more
    have tiles := ih ran
    rw [whole, Text.beforeZero_append fun b member => ne_zero_of_isSpace (blank b member),
      Text.beforeZero_append nonzero]
    rw [goes] at tiles
    exact .cons blank stands filled tiles

namespace Tiles

variable {place : Position} {text : Text} {token : Token} {tokens : List Token}

theorem standsIn (tiles : Tiles place text tokens) (before : Text) (starts : before.length = place.offset)
    (rest : Text) : ∀ token ∈ tokens, token.StandsIn (before ++ (text ++ rest)) := by
  induction tiles generalizing before with
  | nil => exact List.forall_mem_nil _
  | @cons place blanks token text tokens blank stands filled tiles ih =>
    have here : (before ++ blanks).length = (place.advance blanks).offset := by
      rw [List.length_append, Position.offset_advance, starts]
    refine List.forall_mem_cons.mpr ⟨⟨_, stands, before ++ blanks, text ++ rest, by simp, here⟩, ?_⟩
    have later := ih (before ++ blanks ++ token.text) (by rw [Position.offset_advance, List.length_append, here])
    simpa using later

/-- A byte belongs to a token unless it is blank. -/
theorem spans_or_blank (tiles : Tiles place text tokens) (found : text[i]? = some b) :
    (∃ token ∈ tokens, token.Spans (place.offset + i)) ∨ isSpace b = true := by
  induction tiles generalizing i with
  | nil blank => exact .inr (blank b (List.mem_of_getElem? found))
  | @cons place blanks token text tokens blank stands filled tiles ih =>
    by_cases before : i < blanks.length
    · rw [List.getElem?_append_left before] at found
      exact .inr (blank b (List.mem_of_getElem? found))
    rw [List.getElem?_append_right (Nat.le_of_not_lt before)] at found
    by_cases within : i - blanks.length < token.text.length
    · refine .inl ⟨token, .head _, _, stands, ?_⟩
      rw [Position.offset_advance]
      omega
    · rw [List.getElem?_append_right (Nat.le_of_not_lt within)] at found
      have offset : ((place.advance blanks).advance token.text).offset +
          (i - blanks.length - token.text.length) = place.offset + i := by
        simp only [Position.offset_advance]
        omega
      rcases ih found with ⟨other, member, spans⟩ | space
      · exact .inl ⟨other, .tail _ member, offset ▸ spans⟩
      · exact .inr space

/-- No token reaches beyond the text. -/
theorem lt_of_spans (tiles : Tiles place text tokens) (member : token ∈ tokens) (spans : token.Spans offset) :
    place.offset ≤ offset ∧ offset < place.offset + text.length := by
  induction tiles with
  | nil => cases member
  | @cons place blanks first text tokens blank stands filled tiles ih =>
    simp only [List.length_append]
    rcases List.mem_cons.mp member with rfl | later
    · obtain ⟨_, here, from_, upto⟩ := spans
      cases stands.symm.trans here
      rw [Position.offset_advance] at from_ upto
      omega
    · have bounds := ih later
      simp only [Position.offset_advance] at bounds
      omega

end Tiles

section Cut

variable {l : Lexer} {read : Text}

/-- The lexer without what follows the first zero byte. -/
def cut (l : Lexer) : Lexer := { l with rest := l.rest.beforeZero }

theorem skip_cut (starts : read <+: l.rest) (nonzero : ∀ b ∈ read, b ≠ 0) :
    l.cut.skip read = (l.skip read).cut := by
  obtain ⟨after, whole⟩ := starts
  simp [skip, cut, ← whole, Text.beforeZero_append nonzero]

end Cut

end Lexer

/-- An error quotes no more than what stands before the first zero byte. -/
def SyntaxError.cut (error : SyntaxError) : SyntaxError := { error with fragment := error.fragment.beforeZero }

namespace Lexer

variable {l : Lexer} {read : Text}

theorem emit_cut (starts : read <+: l.rest) (nonzero : ∀ b ∈ read, b ≠ 0) :
    l.cut.emit kind read = ((l.emit kind read).1.mapError SyntaxError.cut, (l.emit kind read).2.cut) := by
  rw [emit, emit, skip_cut starts nonzero]
  rfl

theorem token_cut (l : Lexer) : l.cut.token = (l.token.1.mapError SyntaxError.cut, l.token.2.cut) := by
  cases shape : l.rest with
  | nil =>
    have same : l.cut = l := by
      rw [cut, shape, Text.beforeZero, List.takeWhile_nil, ← shape]
    have ended : l.token = (.ok ⟨.eof, [], some l.position⟩, l) := by rw [token, shape]
    rw [same, ended]
    exact congrArg _ same.symm
  | cons b rest =>
    by_cases zero : b = 0
    · have ended : l.token = (.ok ⟨.eof, [], some l.position⟩, l) := by simp [token, shape, zero]
      have empty : l.cut.rest = [] := by simp [cut, shape, zero, Text.beforeZero]
      rw [ended, token, empty]
      rfl
    have cutShape : l.cut.rest = b :: Text.beforeZero rest := by rw [cut, shape, Text.beforeZero_cons zero]
    have mark : [b] <+: l.rest := shape ▸ ⟨rest, rfl⟩
    have single : ∀ c ∈ [b], c ≠ 0 := List.forall_mem_singleton.mpr zero
    have string : ∀ c ∈ b :: (stringTail rest).1, c ≠ 0 :=
      List.forall_mem_cons.mpr ⟨zero, stringTail_nonzero rest⟩
    have operator : ∀ c ∈ b :: operatorTail l.operators rest, c ≠ 0 :=
      List.forall_mem_cons.mpr ⟨zero, operatorTail_nonzero l.operators rest⟩
    have stringStarts : b :: (stringTail rest).1 <+: l.rest := shape ▸ stringTail_starts b rest
    have same : l.cut.operators = l.operators ∧ l.cut.last = l.last ∧ l.cut.position = l.position := ⟨rfl, rfl, rfl⟩
    rw [token, token, cutShape, shape]
    simp only [stringTail_beforeZero, startsWithDigit_beforeZero, word_beforeZero, operatorTail_beforeZero, same]
    split
    · contradiction
    split
    · exact emit_cut mark single
    split
    · exact emit_cut mark single
    split
    · exact emit_cut mark single
    split
    · split
      · exact emit_cut stringStarts string
      · rw [skip_cut stringStarts string]
        simp [Except.mapError, SyntaxError.cut, Text.beforeZero_cons zero]
    split
    · exact emit_cut (shape ▸ word_starts l.operators b rest) (word_nonzero _ _ zero)
    split
    · exact emit_cut (shape ▸ operatorTail_starts l.operators b rest) operator
    · exact emit_cut (shape ▸ word_starts l.operators b rest) (word_nonzero _ _ zero)

theorem next_cut (l : Lexer) : l.cut.next = (l.next.1.mapError SyntaxError.cut, l.next.2.cut) := by
  have blank : ∀ b ∈ l.rest.takeWhile isSpace, b ≠ 0 :=
    fun b member => ne_zero_of_isSpace (List.all_eq_true.mp List.all_takeWhile b member)
  have skips : l.cut.skipBlanks = l.skipBlanks.cut := by
    have same : l.cut.rest.takeWhile isSpace = l.rest.takeWhile isSpace :=
      takeWhile_beforeZero l.rest fun _ => ne_zero_of_isSpace
    rw [skipBlanks, same]
    exact skip_cut (List.takeWhile_prefix _) blank
  rw [next, skips, token_cut]
  rfl

/-- What follows the first zero byte is not read. -/
theorem run_cut (l : Lexer) : l.cut.run = l.run.mapError SyntaxError.cut := by
  fun_induction run l with
  | case1 l error after found =>
    have next := next_cut l
    rw [found] at next
    exact run_failed next
  | case2 l token after found finished =>
    have next := next_cut l
    rw [found] at next
    exact run_end next finished
  | case3 l token after found more shorter ih =>
    have next := next_cut l
    rw [found] at next
    rw [run_step next more, ih]
    cases after.run <;> rfl

end Lexer

namespace Compiler

variable {compiler : Compiler} {text other : Text}

/-- Texts that agree up to their first zero bytes are the same query. -/
theorem compile_of_beforeZero (same : text.beforeZero = other.beforeZero)
    (compiled : compiler.compile text = .ok criteria) : compiler.compile other = .ok criteria := by
  obtain ⟨tokens, ending, ran, made⟩ := compile_eq_ok_iff.mp compiled
  refine compile_eq_ok_iff.mpr ⟨tokens, ending, ?_, made⟩
  have cuts : (Lexer.start text compiler.operators).cut = (Lexer.start other compiler.operators).cut := by
    simp [Lexer.start, Lexer.cut, same]
  have cut := Lexer.run_cut (Lexer.start text compiler.operators)
  rw [cuts, Lexer.run_cut, ran] at cut
  exact mapError_eq_ok.mp cut

end Compiler

/-- Every byte of the text belongs to a token or is blank. -/
def Covers (tokens : List Token) (text : Text) : Prop :=
  ∀ offset b, text[offset]? = some b → (∃ token ∈ tokens, token.Spans offset) ∨ Lexer.isSpace b = true

section Covered

variable {text operators : Text} {tokens : List Token} {ending : Token}

theorem standsIn_of_run (ran : (Lexer.start text operators).run = .ok (tokens, ending)) :
    ∀ token ∈ tokens, token.StandsIn text := by
  obtain ⟨rest, whole⟩ := text.beforeZero_prefix
  have stands := (Lexer.run_tiles ran).standsIn [] rfl rest
  rwa [List.nil_append, Lexer.start, whole] at stands

theorem covers_beforeZero (ran : (Lexer.start text operators).run = .ok (tokens, ending)) :
    Covers tokens text.beforeZero := by
  intro offset b found
  simpa [Lexer.start, Position.start] using (Lexer.run_tiles ran).spans_or_blank found

theorem covers_iff (ran : (Lexer.start text operators).run = .ok (tokens, ending)) :
    Covers tokens text ↔ 0 ∉ text := by
  constructor
  · intro covers zero
    -- The zero byte is blank to no lexer, and the tokens end before it.
    rcases covers _ 0 (Text.getElem?_length_beforeZero zero) with ⟨token, member, spans⟩ | space
    · have bounds := (Lexer.run_tiles ran).lt_of_spans member spans
      simp [Lexer.start, Position.start] at bounds
    · exact Lexer.ne_zero_of_isSpace space rfl
  · intro nonzero
    have whole : text.beforeZero = text :=
      Text.beforeZero_of_nonzero fun b member zero => nonzero (zero ▸ member)
    exact whole ▸ covers_beforeZero ran

end Covered

/-- The tokens of an accepted query stand in its text and leave out only blanks before the first zero byte,
so they cover the text exactly if it has no such byte. What follows one has no part in the result. -/
theorem Compiler.covers_iff_of_compile (compiler : Compiler) (text : Text) (criteria : Criteria)
    (compiled : compiler.compile text = .ok criteria) :
    ∃ tokens ending, (Lexer.start text compiler.operators).run = .ok (tokens, ending) ∧
      compiler.query (compiler.restriction compiler.maxDepth) false ending tokens = .ok criteria ∧
      (∀ token ∈ tokens, token.StandsIn text) ∧ Covers tokens text.beforeZero ∧
      (Covers tokens text ↔ 0 ∉ text) ∧
      ∀ ignored, compiler.compile (text.beforeZero ++ 0 :: ignored) = .ok criteria := by
  obtain ⟨tokens, ending, ran, made⟩ := compile_eq_ok_iff.mp compiled
  refine ⟨tokens, ending, ran, made, standsIn_of_run ran, covers_beforeZero ran, covers_iff ran, ?_⟩
  intro ignored
  exact compile_of_beforeZero (Text.beforeZero_beforeZero_append text ignored).symm compiled

/-- A query with the zero byte before its condition. -/
def roostText : Text :=
  Text.ofString "SELECT name FROM Pigeon " ++ 0 :: Text.ofString "WHERE mate.name = 'x'"

def roostCompiler : Compiler := ⟨⟨[pigeonType]⟩, ⟨"acme", []⟩, [], 32⟩

theorem roost_covers_iff : ∃ criteria tokens ending,
    roostCompiler.compile roostText = .ok criteria ∧
      (Lexer.start roostText []).run = .ok (tokens, ending) ∧ (Covers tokens roostText ↔ 0 ∉ roostText) ∧
      roostCompiler.compile (roostText.beforeZero ++ 0 :: Text.ofString "LIMIT 1") = .ok criteria := by
  have compiles : (roostCompiler.compile roostText).toBool = true := by decide +kernel
  obtain ⟨criteria, compiled⟩ := exists_ok_of_toBool compiles
  obtain ⟨tokens, ending, ran, _, _, _, covers, ignores⟩ :=
    Compiler.covers_iff_of_compile roostCompiler roostText criteria compiled
  exact ⟨criteria, tokens, ending, compiled, ran, covers, ignores _⟩

/-- The condition of this accepted query is dropped. -/
theorem roost_uncovered : ∃ criteria tokens ending,
    roostCompiler.compile roostText = .ok criteria ∧ criteria.restriction = none ∧
      (Lexer.start roostText []).run = .ok (tokens, ending) ∧ ¬Covers tokens roostText := by
  have compiles : (roostCompiler.compile roostText).toOption.any (·.restriction.isNone) = true := by
    decide +kernel
  obtain ⟨criteria, found, unrestricted⟩ := (Option.any_eq_true _ _).mp compiles
  have compiled := toOption_eq_some.mp found
  obtain ⟨tokens, ending, ran, _⟩ := Compiler.compile_eq_ok_iff.mp compiled
  refine ⟨criteria, tokens, ending, compiled, Option.isNone_iff_eq_none.mp unrestricted, ran, ?_⟩
  rw [covers_iff ran]
  decide

end RecordQuery
