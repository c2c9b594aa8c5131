import RecordQuery.Proofs.Lexing.Run

/-! How a text falls into tokens, piece by piece: each rule takes one piece off the start and leaves
the rest. Positions do not matter here, so tokens are looked at without them. -/
namespace RecordQuery

/-- A token without its place. -/
abbrev Lexeme := TokenKind × Text

namespace Lexeme

abbrev word (text : Text) : Lexeme := (.word, text)

abbrev opening : Lexeme := (.opening, "(")

abbrev closing : Lexeme := (.closing, ")")

abbrev comma : Lexeme := (.comma, ",")

end Lexeme

def Token.lexeme (token : Token) : Lexeme := (token.kind, token.text)

namespace Text

/-- Whether a word can hold this byte. -/
def isWordByte (b : UInt8) : Bool := Lexer.inWord Lexer.defaultOperators b

/-- A sign and a digit: at the start of a value they make a number. -/
def isSigned : Text → Bool
  | [] => false
  | b :: rest => Lexer.isSign b && Lexer.startsWithDigit rest

/-- A word all of whose bytes may stand inside words. -/
def isPlain (w : Text) : Bool := !w.isEmpty && w.all isWordByte

/-- What a query can spell as a single word. -/
def isWord (w : Text) : Bool := w.isPlain || (w.isSigned && isPlain (w.drop 1))

/-- The tokens of a word: at a place where no value may begin, a sign is split off. -/
def lexemes (w : Text) (fresh : Bool) : List Lexeme :=
  if w.isSigned ∧ fresh = false then [(.operator, w.take 1), (.word, w.drop 1)] else [(.word, w)]

/-- No word goes on with this text. -/
def Stops (rest : Text) : Prop := ∀ b ∈ rest.head?, isWordByte b = false

theorem isWordByte_iff {b : UInt8} : isWordByte b = true ↔
    b ≠ 0 ∧ Lexer.isSpace b = false ∧ b ≠ ascii '(' ∧ b ≠ ascii ')' ∧ b ≠ ascii ',' ∧
      b ≠ ascii '\'' ∧ Lexer.isOperator Lexer.defaultOperators b = false := by
  simp [isWordByte, Lexer.inWord, and_assoc]

theorem isOperator_of_isSign {b : UInt8} (sign : Lexer.isSign b = true) :
    Lexer.isOperator Lexer.defaultOperators b = true := by
  simp only [Lexer.isSign, Bool.or_eq_true, beq_iff_eq] at sign
  rcases sign with rfl | rfl <;> decide

theorem isSign_of_isWordByte {b : UInt8} (inside : isWordByte b = true) :
    Lexer.isSign b = false := by
  by_contra sign
  have operator := isOperator_of_isSign (Bool.not_eq_false _ |>.mp sign)
  rw [(isWordByte_iff.mp inside).2.2.2.2.2.2] at operator
  cases operator

theorem not_isSigned_of_isPlain {w : Text} (word : w.isPlain = true) : w.isSigned = false := by
  cases w with
  | nil => rfl
  | cons b w =>
    simp only [isPlain, Bool.and_eq_true] at word
    have byte : isWordByte b = true := by simpa using (List.all_eq_true.mp word.2) b (.head _)
    simp [isSigned, isSign_of_isWordByte byte]

theorem takeWhile_word {w rest : Text} (inside : w.all isWordByte = true) (stops : Stops rest) :
    (w ++ rest).takeWhile isWordByte = w := by
  have empty : rest.takeWhile isWordByte = [] := by
    cases rest with
    | nil => rfl
    | cons b rest => simp [stops b rfl]
  rw [List.takeWhile_append_of_pos (List.all_eq_true.mp inside), empty, List.append_nil]

end Text

namespace Lexer

theorem run_step {l after : Lexer} {token : Token} (found : l.next = (.ok token, after))
    (more : token.kind ≠ .eof) :
    l.run = after.run.map fun (tokens, finish) => (token :: tokens, finish) := by
  rw [run.eq_def]
  split
  · rename_i failed
    rw [found] at failed
    cases failed
  · rename_i other rest same
    rw [found] at same
    cases same
    simp [more]

theorem run_end {l after : Lexer} {token : Token} (found : l.next = (.ok token, after))
    (finished : token.kind = .eof) : l.run = .ok ([], token) := by
  rw [run.eq_def]
  split
  · rename_i failed
    rw [found] at failed
    cases failed
  · rename_i other rest same
    rw [found] at same
    cases same
    simp [finished]

theorem next_of_unblank {l : Lexer} (unblank : ∀ b ∈ l.rest.head?, isSpace b = false) :
    l.next = l.token := by
  have empty : l.rest.takeWhile isSpace = [] := by
    cases shape : l.rest with
    | nil => rfl
    | cons b rest => simp [unblank b (by simp [shape])]
  rw [next, skipBlanks, empty]
  rfl

theorem skip_cons (l : Lexer) (b : UInt8) (read : Text) :
    l.skip (b :: read) = (l.skip [b]).skip read := by
  simp [skip, Position.advance]

theorem next_of_blank {l : Lexer} {b : UInt8} {rest : Text} (shape : l.rest = b :: rest)
    (blank : isSpace b = true) : l.next = (l.skip [b]).next := by
  have after : (l.skip [b]).rest = rest := by simp [skip, shape]
  rw [next, next, skipBlanks, skipBlanks, after, shape, List.takeWhile_cons_of_pos blank, skip_cons]

theorem run_failed {l after : Lexer} (failed : l.next = (.error error, after)) :
    l.run = .error error := by
  rw [run.eq_def]
  split
  · rename_i same
    rw [failed] at same
    cases same
    rfl
  · rename_i same
    rw [failed] at same
    cases same

theorem run_congr {l other : Lexer} (same : l.next = other.next) : l.run = other.run := by
  cases found : other.next with
  | mk result after =>
    rw [found] at same
    cases result with
    | error error => rw [run_failed same, run_failed found]
    | ok token =>
      by_cases finished : token.kind = .eof
      · rw [run_end same finished, run_end found finished]
      · rw [run_step same finished, run_step found finished]

end Lexer

/-- The text falls into these tokens; `fresh` says whether a value may begin at its start. -/
def Scans (fresh : Bool) (text : Text) (lexemes : List Lexeme) : Prop :=
  ∀ position last, Lexer.beforeValue last = fresh → ∃ tokens ending,
    (⟨Lexer.defaultOperators, text, position, last⟩ : Lexer).run = .ok (tokens, ending) ∧
      tokens.map Token.lexeme = lexemes

namespace Scans

open Lexer

variable {fresh : Bool} {rest : Text} {lexemes : List Lexeme}

theorem nil : Scans fresh [] [] := by
  intro position last _
  have found : (⟨defaultOperators, [], position, last⟩ : Lexer).next =
      (.ok ⟨.eof, [], some position⟩, ⟨defaultOperators, [], position, last⟩) := rfl
  exact ⟨[], _, run_end found rfl, rfl⟩

theorem blank (space : isSpace b = true) (scans : Scans fresh rest lexemes) :
    Scans fresh (b :: rest) lexemes := by
  intro position last before
  obtain ⟨tokens, ending, ran, same⟩ := scans (position.advance [b]) last before
  refine ⟨tokens, ending, ?_, same⟩
  rw [run_congr (next_of_blank rfl space)]
  exact ran

/-- The text starts with one token, whatever its place. -/
theorem emit {text : Text} {kind : TokenKind}
    (unblank : ∀ b ∈ (text ++ rest).head?, isSpace b = false) (more : kind ≠ .eof)
    (starts : ∀ position last, beforeValue last = fresh →
      (⟨defaultOperators, text ++ rest, position, last⟩ : Lexer).token =
        Lexer.emit ⟨defaultOperators, text ++ rest, position, last⟩ kind text)
    (scans : Scans (beforeValue kind) rest lexemes) :
    Scans fresh (text ++ rest) ((kind, text) :: lexemes) := by
  intro position last before
  obtain ⟨tokens, ending, ran, same⟩ := scans (position.advance text) kind rfl
  have found := (next_of_unblank unblank).trans (starts position last before)
  refine ⟨⟨kind, text, some position⟩ :: tokens, ending, ?_, by simp [same, Token.lexeme]⟩
  rw [run_step found more]
  simp only [skip, List.drop_left]
  rw [ran]
  rfl

theorem space (scans : Scans fresh rest lexemes) : Scans fresh (Text.ofString " " ++ rest) lexemes :=
  blank (by decide) scans

/-- A byte that is a token of its own. -/
theorem mark {b : UInt8} {kind : TokenKind} (space : isSpace b = false) (more : kind ≠ .eof)
    (starts : ∀ position last, beforeValue last = fresh →
      (⟨defaultOperators, b :: rest, position, last⟩ : Lexer).token =
        Lexer.emit ⟨defaultOperators, b :: rest, position, last⟩ kind [b])
    (scans : Scans (beforeValue kind) rest lexemes) :
    Scans fresh (b :: rest) ((kind, [b]) :: lexemes) := by
  have whole : Scans fresh ([b] ++ rest) ((kind, [b]) :: lexemes) :=
    emit (by simp [space]) more starts scans
  exact whole

theorem opening (scans : Scans true rest lexemes) :
    Scans fresh (Text.ofString "(" ++ rest) ((.opening, "(") :: lexemes) :=
  mark (b := Text.ascii '(') (by decide) (by decide) (fun _ _ _ => rfl) scans

theorem closing (scans : Scans false rest lexemes) :
    Scans fresh (Text.ofString ")" ++ rest) ((.closing, ")") :: lexemes) :=
  mark (b := Text.ascii ')') (by decide) (by decide) (fun _ _ _ => rfl) scans

theorem comma (scans : Scans true rest lexemes) :
    Scans fresh (Text.ofString "," ++ rest) ((.comma, ",") :: lexemes) :=
  mark (b := Text.ascii ',') (by decide) (by decide) (fun _ _ _ => rfl) scans

/-- A plain word. -/
theorem plain {w : Text} (word : w.isPlain = true) (stops : Text.Stops rest)
    (scans : Scans false rest lexemes) : Scans fresh (w ++ rest) ((.word, w) :: lexemes) := by
  simp only [Text.isPlain, Bool.and_eq_true, Bool.not_eq_true', List.isEmpty_eq_false_iff] at word
  cases w with
  | nil => exact absurd rfl word.1
  | cons b w =>
    have byte : Text.isWordByte b = true := by simpa using (List.all_eq_true.mp word.2) b (.head _)
    obtain ⟨zero, space, opening, closing, comma, quote, operator⟩ := Text.isWordByte_iff.mp byte
    have sign := Text.isSign_of_isWordByte byte
    refine emit ?_ (by decide) ?_ scans
    · simp [space]
    · intro position last before
      have whole : Lexer.word defaultOperators b (w ++ rest) = b :: w := by
        simp only [Lexer.word, sign, Bool.false_eq_true, ↓reduceIte]
        exact Text.takeWhile_word word.2 stops
      simp [token, zero, opening, closing, comma, quote, sign, operator, whole]

theorem isSigned_cons {w : Text} (signed : w.isSigned = true) :
    ∃ sign number, w = sign :: number ∧ isSign sign = true ∧ startsWithDigit number = true := by
  cases w with
  | nil => cases signed
  | cons sign number =>
    simp only [Text.isSigned, Bool.and_eq_true] at signed
    exact ⟨sign, number, rfl, signed⟩

/-- A sign is none of the marks. -/
theorem sign_unlike {sign : UInt8} (isSign : isSign sign = true) :
    sign ≠ 0 ∧ isSpace sign = false ∧ sign ≠ Text.ascii '(' ∧ sign ≠ Text.ascii ')' ∧
      sign ≠ Text.ascii ',' ∧ sign ≠ Text.ascii '\'' := by
  simp only [Lexer.isSign, Bool.or_eq_true, beq_iff_eq] at isSign
  rcases isSign with rfl | rfl <;> decide

theorem startsWithDigit_append {number : Text} (digit : startsWithDigit number = true) :
    startsWithDigit (number ++ rest) = true := by
  cases number with
  | nil => cases digit
  | cons b number => exact digit

/-- A number with its sign, where a value may begin. -/
theorem number {w : Text} (signed : w.isSigned = true) (word : Text.isPlain (w.drop 1) = true)
    (stops : Text.Stops rest) (scans : Scans false rest lexemes) :
    Scans true (w ++ rest) ((.word, w) :: lexemes) := by
  obtain ⟨sign, number, rfl, isSign, digit⟩ := isSigned_cons signed
  obtain ⟨zero, space, opening, closing, comma, quote⟩ := sign_unlike isSign
  simp only [List.drop_succ_cons, List.drop_zero, Text.isPlain, Bool.and_eq_true] at word
  refine emit ?_ (by decide) ?_ scans
  · simp [space]
  · intro position last before
    have whole : Lexer.word defaultOperators sign (number ++ rest) = sign :: number := by
      simp only [Lexer.word, isSign, ↓reduceIte, List.cons.injEq, true_and]
      exact Text.takeWhile_word word.2 stops
    simp [token, zero, opening, closing, comma, quote, isSign, before, whole,
      startsWithDigit_append digit]

/-- Elsewhere the sign is an operator and the number a word of its own. -/
theorem split {w : Text} (signed : w.isSigned = true) (word : Text.isPlain (w.drop 1) = true)
    (stops : Text.Stops rest) (scans : Scans false rest lexemes) :
    Scans false (w ++ rest) ((.operator, w.take 1) :: (.word, w.drop 1) :: lexemes) := by
  obtain ⟨sign, number, rfl, isSign, digit⟩ := isSigned_cons signed
  obtain ⟨zero, space, opening, closing, comma, quote⟩ := sign_unlike isSign
  have operator := Text.isOperator_of_isSign isSign
  simp only [List.drop_succ_cons, List.drop_zero, List.take_succ_cons, List.take_zero] at word ⊢
  have later : Scans true (number ++ rest) ((.word, number) :: lexemes) := plain word stops scans
  refine mark space (by decide) ?_ later
  intro position last before
  have tail : operatorTail defaultOperators (number ++ rest) = [] := by
    cases number with
    | nil => cases digit
    | cons b number =>
      have unlike : isOperator defaultOperators b = false := by
        simp only [Text.isPlain, Bool.and_eq_true] at word
        have byte : Text.isWordByte b = true := by simpa using (List.all_eq_true.mp word.2) b (.head _)
        exact (Text.isWordByte_iff.mp byte).2.2.2.2.2.2
      simp [operatorTail, unlike]
  simp [token, zero, opening, closing, comma, quote, isSign, before, operator, tail]

theorem operatorTail_run {w : Text}
    (operators : ∀ b ∈ w, isOperator defaultOperators b = true ∧ isSign b = false)
    (stops : ∀ b ∈ rest.head?, isOperator defaultOperators b = false) :
    operatorTail defaultOperators (w ++ rest) = w := by
  induction w with
  | nil =>
    cases rest with
    | nil => rfl
    | cons b rest => simp [operatorTail, stops b rfl]
  | cons b w ih =>
    have here := operators b (.head _)
    have more := ih fun other member => operators other (.tail _ member)
    simp [operatorTail, here, more]

theorem operator_unlike {b : UInt8} (operator : isOperator defaultOperators b = true) :
    b ≠ 0 ∧ isSpace b = false ∧ b ≠ Text.ascii '(' ∧ b ≠ Text.ascii ')' ∧
      b ≠ Text.ascii ',' ∧ b ≠ Text.ascii '\'' := by
  have each : ∀ b ∈ defaultOperators, b ≠ 0 ∧ isSpace b = false ∧ b ≠ Text.ascii '(' ∧
      b ≠ Text.ascii ')' ∧ b ≠ Text.ascii ',' ∧ b ≠ Text.ascii '\'' := by
    decide +kernel
  simp only [isOperator, Bool.and_eq_true, List.contains_iff_mem] at operator
  exact each b operator.2

/-- A run of operator characters. -/
theorem symbol {w : Text} (filled : w ≠ [])
    (operators : ∀ b ∈ w, isOperator defaultOperators b = true ∧ isSign b = false)
    (stops : ∀ b ∈ rest.head?, isOperator defaultOperators b = false)
    (scans : Scans true rest lexemes) :
    Scans fresh (w ++ rest) ((.operator, w) :: lexemes) := by
  cases w with
  | nil => exact absurd rfl filled
  | cons b w =>
    obtain ⟨operator, sign⟩ := operators b (.head _)
    obtain ⟨zero, space, opening, closing, comma, quote⟩ := operator_unlike operator
    have tail := operatorTail_run (fun other member => operators other (.tail _ member)) stops
    refine emit ?_ (by decide) ?_ scans
    · simp [space]
    · intro position last before
      simp [token, zero, opening, closing, comma, quote, sign, operator, tail]

theorem word {w : Text} (isWord : w.isWord = true) (stops : Text.Stops rest)
    (scans : Scans false rest lexemes) :
    Scans fresh (w ++ rest) (w.lexemes fresh ++ lexemes) := by
  simp only [Text.isWord, Bool.or_eq_true, Bool.and_eq_true] at isWord
  unfold Text.lexemes
  split
  · rename_i apart
    obtain ⟨signed, rfl⟩ := apart
    rcases isWord with word | ⟨_, word⟩
    · exact absurd signed (by simp [Text.not_isSigned_of_isPlain word])
    · exact split signed word stops scans
  · rename_i whole
    rcases isWord with word | ⟨signed, word⟩
    · exact plain word stops scans
    · obtain rfl : fresh = true := by simpa [signed] using whole
      exact number signed word stops scans

end Scans
end RecordQuery
