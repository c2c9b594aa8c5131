import RecordQuery.Proofs.Grammar.Tokens
import RecordQuery.Proofs.Success
import RecordQuery.Token.Lexer

namespace RecordQuery.Lexer

/-- Where a token can come from, after one of the given kind. -/
inductive Origin (operators : Text) (last : TokenKind) : Token → Prop where
  | mark {token : Token}
      (kind : token.kind = .opening ∨ token.kind = .closing ∨ token.kind = .comma ∨
        token.kind = .operator) : Origin operators last token
  | string {token : Token} {rest : Text} (kind : token.kind = .string)
      (closed : (stringTail rest).2 = true)
      (text : token.text = Text.ascii '\'' :: (stringTail rest).1) : Origin operators last token
  | number {token : Token} {sign : UInt8} {rest : Text} (kind : token.kind = .word)
      (signed : isSign sign = true) (digit : startsWithDigit rest = true)
      (before : beforeValue last = true)
      (text : token.text = sign :: rest.takeWhile (inWord operators)) : Origin operators last token
  | word {token : Token} {first : UInt8} {rest : Text} (kind : token.kind = .word)
      (inside : inWord operators first = true)
      (text : token.text = word operators first rest) : Origin operators last token

theorem token_operators (l : Lexer) : l.token.2.operators = l.operators := by
  unfold token
  split
  · rfl
  · repeat' split
    all_goals rfl

theorem next_operators {l : Lexer} (found : l.next = (result, after)) : after.operators = l.operators := by
  have same := l.skipBlanks.token_operators
  rw [← next, found] at same
  exact same

theorem token_origin {l : Lexer} {token : Token} (found : l.token = (.ok token, after))
    (unblank : ∀ b rest, l.rest = b :: rest → isSpace b = false) (more : token.kind ≠ .eof) :
    Origin l.operators l.last token := by
  unfold Lexer.token at found
  split at found
  · cases found
    exact absurd rfl more
  · rename_i b rest shape
    have space := unblank b rest shape
    split at found
    · cases found
      exact absurd rfl more
    rename_i zero
    split at found
    · cases found
      exact .mark (.inl rfl)
    rename_i opening
    split at found
    · cases found
      exact .mark (.inr (.inl rfl))
    rename_i closing
    split at found
    · cases found
      exact .mark (.inr (.inr (.inl rfl)))
    rename_i comma
    split at found
    · rename_i quote
      split at found
      · rename_i closed
        cases found
        exact .string rfl closed (by rw [quote])
      · cases found
    rename_i quote
    split at found
    · rename_i signed
      simp only [Bool.and_eq_true] at signed
      cases found
      exact .number rfl signed.1.1 signed.1.2 signed.2 (by simp [word, signed.1.1])
    split at found
    · cases found
      exact .mark (.inr (.inr (.inr rfl)))
    · rename_i plain
      cases found
      refine .word rfl ?_ rfl
      simp [inWord, zero, opening, closing, comma, quote, space, plain]

theorem next_origin {l : Lexer} {token : Token} (found : l.next = (.ok token, after))
    (more : token.kind ≠ .eof) :
    Origin l.operators l.last token := by
  rw [next] at found
  exact token_origin (l := l.skipBlanks) found l.skipBlanks_unblank more

theorem emit_last {l : Lexer} {token : Token} (found : l.emit kind text = (.ok token, after)) :
    after.last = token.kind := by
  cases found
  rfl

theorem next_last {l : Lexer} {token : Token} (found : l.next = (.ok token, after))
    (more : token.kind ≠ .eof) : after.last = token.kind := by
  rw [next] at found
  unfold Lexer.token at found
  split at found
  · cases found
    exact absurd rfl more
  · split at found
    · cases found
      exact absurd rfl more
    · repeat' split at found
      all_goals first
      | exact emit_last found
      | cases found

/-- Tokens that each have an origin after the one before them, the first after the given kind. -/
def Traced (operators : Text) : TokenKind → List Token → Prop
  | _, [] => True
  | last, token :: tokens => Origin operators last token ∧ Traced operators token.kind tokens

/-- The tokens of a text have an origin, and the text ends with the end token. -/
theorem run_traced {l : Lexer} (ran : l.run = .ok (tokens, ending)) :
    Traced l.operators l.last tokens ∧ ending.kind = .eof := by
  fun_induction run l generalizing tokens with
  | case1 => cases ran
  | case2 l token after found finished =>
    cases ran
    exact ⟨trivial, finished⟩
  | case3 l token after found more shorter ih =>
    obtain ⟨⟨rest, _⟩, ran, same⟩ := map_eq_ok.mp ran
    cases same
    obtain ⟨traced, finished⟩ := ih ran
    refine ⟨⟨next_origin found more, ?_⟩, finished⟩
    rwa [next_operators found, next_last found more] at traced

theorem Origin.written {operators : Text} {last : TokenKind} {token : Token} (origin : Origin operators last token) :
    token.kind.isWritten = true := by
  cases origin with
  | mark kind => rcases kind with kind | kind | kind | kind <;> simp [kind, TokenKind.isWritten]
  | string kind _ _ => simp [kind, TokenKind.isWritten]
  | number kind _ _ _ _ => simp [kind, TokenKind.isWritten]
  | word kind _ _ => simp [kind, TokenKind.isWritten]

namespace Traced

variable {operators : Text} {last : TokenKind} {token : Token} {tokens more : List Token}

theorem origin (traced : Traced operators last tokens) (member : token ∈ tokens) :
    ∃ last, Origin operators last token := by
  induction tokens generalizing last with
  | nil => cases member
  | cons first tokens ih =>
    rcases List.mem_cons.mp member with rfl | later
    · exact ⟨last, traced.1⟩
    · exact ih traced.2 later

theorem written (traced : Traced operators last tokens) :
    ∀ token ∈ tokens, token.kind.isWritten = true := by
  intro token member
  obtain ⟨_, origin⟩ := traced.origin member
  exact origin.written

/-- Any part of traced tokens is traced. -/
theorem append (traced : Traced operators last (tokens ++ more)) :
    Traced operators last tokens ∧ ∃ last, Traced operators last more := by
  induction tokens generalizing last with
  | nil => exact ⟨trivial, last, traced⟩
  | cons token tokens ih =>
    obtain ⟨before, after⟩ := ih traced.2
    exact ⟨⟨traced.1, before⟩, after⟩

theorem within (traced : Traced operators last tokens) (inside : more <:+: tokens) :
    ∃ last, Traced operators last more := by
  obtain ⟨before, after, rfl⟩ := inside
  obtain ⟨kept, -⟩ := traced.append
  exact kept.append.2

/-- After an opening bracket any token may come that may come after another. -/
theorem opened (traced : Traced operators last tokens) : Traced operators .opening tokens := by
  cases tokens with
  | nil => trivial
  | cons token tokens =>
    refine ⟨?_, traced.2⟩
    cases traced.1 with
    | mark kind => exact .mark kind
    | string kind closed text => exact .string kind closed text
    | number kind signed digit _ text => exact .number kind signed digit rfl text
    | word kind inside text => exact .word kind inside text

theorem close (traced : Traced operators last tokens) (closes : closing.kind = .closing) :
    Traced operators last (tokens ++ [closing]) := by
  induction tokens generalizing last with
  | nil => exact ⟨.mark (.inr (.inl closes)), trivial⟩
  | cons token tokens ih => exact ⟨traced.1, ih traced.2⟩

end Traced

end RecordQuery.Lexer
