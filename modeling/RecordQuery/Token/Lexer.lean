import RecordQuery.Error

/-! Splitting a query into tokens. Blanks separate; brackets and commas stand alone; a string runs
to its closing quote; a run of operator characters is one token, except that a sign before a digit
starts a number where a value may begin. A zero byte ends the query. -/
namespace RecordQuery

structure Lexer where
  operators : Text
  /-- What is still to be read. -/
  rest : Text
  /-- The place where `rest` starts. -/
  position : Position
  /-- The kind of the last token. -/
  last : TokenKind
  deriving DecidableEq, Repr

namespace Lexer

def defaultOperators : Text := "+-<>="

/-- Without operator characters the default ones are taken. -/
def start (input operators : Text) : Lexer :=
  ⟨if operators.isEmpty then defaultOperators else operators, input, .start, .eof⟩

def isSpace (b : UInt8) : Bool := b == 0x20 || (0x09 ≤ b && b ≤ 0x0D)

def isSign (b : UInt8) : Bool := b == Text.ascii '-' || b == Text.ascii '+'

def isOperator (operators : Text) (b : UInt8) : Bool := b != 0 && operators.contains b

def startsWithDigit : Text → Bool
  | [] => false
  | b :: _ => Text.isDigit b

/-- Whether a word goes on with this byte. -/
def inWord (operators : Text) (b : UInt8) : Bool :=
  b != 0 && !isSpace b && b != Text.ascii '(' && b != Text.ascii ')' && b != Text.ascii ',' &&
    b != Text.ascii '\'' && !isOperator operators b

/-- A sign may start a number after an operator, an opening bracket or a comma. -/
def beforeValue : TokenKind → Bool
  | .operator | .opening | .comma => true
  | _ => false

/-- The word at the start of `b :: rest`; a leading sign belongs to it. -/
def word (operators : Text) (b : UInt8) (rest : Text) : Text :=
  if isSign b then b :: rest.takeWhile (inWord operators)
  else (b :: rest).takeWhile (inWord operators)

/-- More operator characters, up to a sign that starts a number. -/
def operatorTail (operators : Text) : Text → Text
  | [] => []
  | b :: rest =>
    if isOperator operators b && !(isSign b && startsWithDigit rest) then
      b :: operatorTail operators rest
    else []

/-- What follows an opening quote up to and including the closing one, and whether there is one.
A backslash takes the next byte with it. -/
def stringTail : Text → Text × Bool
  | [] => ([], false)
  | b :: rest =>
    if b = 0 then ([], false)
    else if b = Text.ascii '\'' then ([b], true)
    else if b = Text.ascii '\\' then
      match rest with
      | [] => ([b], false)
      | c :: rest =>
        if c = 0 then ([b], false) else (b :: c :: (stringTail rest).1, (stringTail rest).2)
    else (b :: (stringTail rest).1, (stringTail rest).2)

/-- The lexer after the given start of its text. -/
def skip (l : Lexer) (read : Text) : Lexer :=
  { l with rest := l.rest.drop read.length, position := l.position.advance read }

def skipBlanks (l : Lexer) : Lexer := l.skip (l.rest.takeWhile isSpace)

def emit (l : Lexer) (kind : TokenKind) (text : Text) : Except SyntaxError Token × Lexer :=
  (.ok ⟨kind, text, some l.position⟩, { l.skip text with last := kind })

/-- The token at the very start of the text, which has no blanks there. -/
def token (l : Lexer) : Except SyntaxError Token × Lexer :=
  match l.rest with
  | [] => (.ok ⟨.eof, [], some l.position⟩, l)
  | b :: rest =>
    if b = 0 then (.ok ⟨.eof, [], some l.position⟩, l)
    else if b = Text.ascii '(' then l.emit .opening [b]
    else if b = Text.ascii ')' then l.emit .closing [b]
    else if b = Text.ascii ',' then l.emit .comma [b]
    else if b = Text.ascii '\'' then
      if (stringTail rest).2 then l.emit .string (b :: (stringTail rest).1)
      else
        (.error ⟨some l.position, b :: rest, .unterminatedString⟩,
          l.skip (b :: (stringTail rest).1))
    else if isSign b && startsWithDigit rest && beforeValue l.last then
      l.emit .word (word l.operators b rest)
    else if isOperator l.operators b then l.emit .operator (b :: operatorTail l.operators rest)
    else l.emit .word (word l.operators b rest)

/-- The next token and the lexer after it. At the end it is the end token, again and again; after
an unterminated string the lexer stands where the string broke off. -/
def next (l : Lexer) : Except SyntaxError Token × Lexer := l.skipBlanks.token

theorem skip_rest_length_le (l : Lexer) (read : Text) :
    (l.skip read).rest.length ≤ l.rest.length := by
  simp [skip]

private theorem emit_shorter {l after : Lexer} {kind : TokenKind} {text : Text} {token : Token}
    (emitted : l.emit kind text = (.ok token, after)) (filled : text ≠ []) (more : l.rest ≠ []) :
    after.rest.length < l.rest.length := by
  have texts := List.length_pos_iff.mpr filled
  have rests := List.length_pos_iff.mpr more
  simp only [emit, Prod.mk.injEq] at emitted
  rw [← emitted.2]
  simp only [skip, List.length_drop]
  omega

theorem word_ne_nil {operators : Text} {b : UInt8} (rest : Text)
    (inside : isSign b = true ∨ inWord operators b = true) : word operators b rest ≠ [] := by
  unfold word
  split
  · simp
  · rename_i unsigned
    rcases inside with signed | inside
    · exact absurd signed unsigned
    · simp [inside]

private theorem token_shorter {l after : Lexer} {token : Token}
    (found : l.token = (.ok token, after)) (more : token.kind ≠ .eof)
    (unblank : ∀ b rest, l.rest = b :: rest → isSpace b = false) :
    after.rest.length < l.rest.length := by
  unfold Lexer.token at found
  split at found
  · cases found; simp at more
  · rename_i b rest shape
    have nonempty : l.rest ≠ [] := by simp [shape]
    have space := unblank b rest shape
    split at found
    · cases found; simp at more
    · rename_i zero
      split at found
      · exact emit_shorter found (by simp) nonempty
      · rename_i opening
        split at found
        · exact emit_shorter found (by simp) nonempty
        · rename_i closing
          split at found
          · exact emit_shorter found (by simp) nonempty
          · rename_i comma
            split at found
            · split at found
              · exact emit_shorter found (by simp) nonempty
              · simp at found
            · rename_i quote
              split at found
              · rename_i signed
                simp only [Bool.and_eq_true] at signed
                exact emit_shorter found (word_ne_nil rest (.inl signed.1.1)) nonempty
              · split at found
                · exact emit_shorter found (by simp) nonempty
                · rename_i plain
                  refine emit_shorter found (word_ne_nil rest (.inr ?_)) nonempty
                  simp [inWord, zero, opening, closing, comma, quote, space, plain]

theorem skipBlanks_rest (l : Lexer) : l.skipBlanks.rest = l.rest.dropWhile isSpace := by
  have whole := congrArg (List.drop (l.rest.takeWhile isSpace).length)
    (List.takeWhile_append_dropWhile (p := isSpace) (l := l.rest)).symm
  exact whole.trans List.drop_left

theorem skipBlanks_unblank (l : Lexer) :
    ∀ b rest, l.skipBlanks.rest = b :: rest → isSpace b = false := by
  intro b rest shape
  rw [skipBlanks_rest] at shape
  have head := List.head_dropWhile_not isSpace (by simp [shape] : l.rest.dropWhile isSpace ≠ [])
  simpa [shape] using head

/-- Every token but the end takes some of the text. -/
theorem next_shorter {l after : Lexer} {token : Token} (found : l.next = (.ok token, after))
    (more : token.kind ≠ .eof) : after.rest.length < l.rest.length :=
  Nat.lt_of_lt_of_le (token_shorter found more l.skipBlanks_unblank)
    (l.skip_rest_length_le _)

/-- All tokens and the end token. -/
def run (l : Lexer) : Except SyntaxError (List Token × Token) :=
  match found : l.next with
  | (.error e, _) => .error e
  | (.ok token, after) =>
    if more : token.kind = .eof then .ok ([], token)
    else
      have := next_shorter found more
      after.run.map fun (tokens, finish) => (token :: tokens, finish)
  termination_by l.rest.length

end Lexer

/-- The tokens of a query, without the end. -/
def tokenize (input operators : Text) : Except SyntaxError (List Token) :=
  (Lexer.start input operators).run.map (·.1)

end RecordQuery
