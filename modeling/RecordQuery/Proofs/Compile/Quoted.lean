import RecordQuery.Proofs.Compile.Lawful
import RecordQuery.Proofs.Compile.Raised
import RecordQuery.Proofs.Text.Ascii

/-! What syntax errors quote, and whether it stands where they point. Tokens of the text do, and so does its
end. The brackets around the restriction of a window are in no text: they are quoted where the window begins
or ends. -/
namespace RecordQuery

namespace Lexer

/-- A closing bracket has its own text. -/
theorem text_of_closing {l : Lexer} {token : Token} (found : l.token = (.ok token, after))
    (closes : token.kind = .closing) : token.text = ")" := by
  unfold Lexer.token at found
  split at found
  · cases found
    cases closes
  · split at found
    · cases found
      cases closes
    split at found
    · cases found
      cases closes
    split at found
    · rename_i closing
      cases found
      rw [closing]
      rfl
    · repeat' split at found
      all_goals cases found
      all_goals cases closes

theorem texts_of_closing {l : Lexer} (ran : l.run = .ok (tokens, ending)) :
    ∀ token ∈ tokens, token.kind = .closing → token.text = ")" := by
  fun_induction run l generalizing tokens with
  | case1 => cases ran
  | case2 l token after found finished =>
    cases ran
    exact List.forall_mem_nil _
  | case3 l token after found more shorter ih =>
    obtain ⟨⟨rest, _⟩, ran, same⟩ := map_eq_ok.mp ran
    cases same
    exact List.forall_mem_cons.mpr ⟨text_of_closing (l := l.skipBlanks) found, ih ran⟩

/-- The end token stands where the text ends or has its first zero byte. -/
theorem position_ending {l : Lexer} (ran : l.run = .ok (tokens, ending)) :
    ending.position = some (l.position.advance l.rest.beforeZero) := by
  fun_induction run l generalizing tokens with
  | case1 => cases ran
  | case2 l token after found finished =>
    cases ran
    have nonzero : ∀ b ∈ l.rest.takeWhile isSpace, b ≠ 0 :=
      fun b member => ne_zero_of_isSpace (List.all_eq_true.mp List.all_takeWhile b member)
    have ends : l.skipBlanks.rest.beforeZero = [] := by
      obtain ⟨-, atEnd⟩ := ended_of_next found finished
      cases shape : l.skipBlanks.rest with
      | nil => rfl
      | cons b rest => simp [Text.beforeZero, atEnd b (by simp [shape])]
    have blank : l.rest.beforeZero = l.rest.takeWhile isSpace := by
      have split := Text.beforeZero_append nonzero l.skipBlanks.rest
      rwa [skipBlanks_rest, List.takeWhile_append_dropWhile, ← skipBlanks_rest, ends, List.append_nil] at split
    cases steps l.skipBlanks_unblank with
    | ended _ ended =>
      cases found.symm.trans ended
      rw [blank]
      rfl
    | failed _ _ failed => cases found.symm.trans failed
    | emits more _ _ _ emitted =>
      cases found.symm.trans emitted
      exact absurd finished more
  | case3 l token after found more shorter ih =>
    obtain ⟨⟨rest, _⟩, ran, same⟩ := map_eq_ok.mp ran
    cases same
    obtain ⟨blanks, blank, whole, -, goes, -, nonzero⟩ := next_takes found more
    rw [ih ran, goes, whole, Text.beforeZero_append fun b member => ne_zero_of_isSpace (blank b member),
      Text.beforeZero_append nonzero, Position.advance_append, Position.advance_append]

end Lexer

/-- The words that clauses open with. -/
def Query.firstWords : List Text := ["WHERE", "GROUP", "ORDER", "LIMIT", "OFFSET"]

namespace Text

/-- In the text the word stands at the offset, in any case. -/
def ReadsAt (text : Text) (offset : Nat) (word : Text) : Prop :=
  ∃ found : Text, found.sameFold word = true ∧ found <+: text.drop offset

/-- A mark does not stand where a word does. -/
theorem not_prefix_of_readsAt {text word more : Text} {mark first : UInt8} (reads : text.ReadsAt offset word)
    (starts : word = first :: more) (low : mark < 0x80) (lowFirst : first < 0x80)
    (other : foldCode mark.toNat ≠ foldCode first.toNat) : ¬ [mark] <+: text.drop offset := by
  obtain ⟨found, same, stands⟩ := reads
  intro marked
  subst starts
  cases found with
  | nil =>
    rw [sameFold, codes_cons lowFirst] at same
    cases same
  | cons b rest =>
    obtain ⟨after, shape⟩ := stands
    rw [← shape] at marked
    obtain ⟨rfl, -⟩ := List.cons_prefix_cons.mp marked
    rw [sameFold_cons low lowFirst other] at same
    cases same

end Text

namespace SyntaxError

/-- What the error quotes stands in the text at the offset; the end of the query stands at its first zero byte,
or else behind all its bytes. -/
def Quotes (error : SyntaxError) (text : Text) (offset : Nat) : Prop :=
  (error.fragment = "end of query" ∧ offset = text.beforeZero.length) ∨ error.fragment <+: text.drop offset

instance (error : SyntaxError) (text : Text) (offset : Nat) : Decidable (error.Quotes text offset) :=
  inferInstanceAs (Decidable (_ ∨ _))

/-- What is quoted without standing there. -/
inductive Misquotes (text : Text) (offset : Nat) : SyntaxError → Prop where
  /-- Counting the wildcard is counting identities. -/
  | identity {position : Option Position} {cause : Cause} (stands : Query.wildcardText <+: text.drop offset)
      (cause_ : cause = .mixedAggregates ∨ cause = .wholeRelationship "id") :
      Misquotes text offset ⟨position, "id", cause⟩
  /-- The bracket before the restriction of a window. -/
  | opening {position : Option Position} {limit : Nat} (stands : text.ReadsAt offset "WHERE") :
      Misquotes text offset ⟨position, "(", .tooDeep limit⟩
  /-- The bracket behind it. -/
  | closing {position : Option Position} {cause : Cause}
      (stands : offset = text.beforeZero.length ∨ ∃ word ∈ Query.firstWords, text.ReadsAt offset word)
      (cause_ : cause = .emptyRestriction ∨ ∃ limit, cause = .tooDeep limit) :
      Misquotes text offset ⟨position, ")", cause⟩

/-- Nothing but the end begins where the text ends. -/
theorem not_prefix_of_end {text : Text} {mark : UInt8} (nonzero : mark ≠ 0) :
    ¬ [mark] <+: text.drop text.beforeZero.length := by
  rintro ⟨rest, shape⟩
  have here : text[text.beforeZero.length]? = some mark := by
    rw [← List.head?_drop, ← shape]
    rfl
  by_cases zero : 0 ∈ text
  · cases here.symm.trans (Text.getElem?_length_beforeZero zero)
    exact nonzero rfl
  · have whole : text.beforeZero = text :=
      Text.beforeZero_of_nonzero fun b member same => zero (same ▸ member)
    rw [whole, List.getElem?_length] at here
    cases here

theorem not_quotes_of_misquotes {error : SyntaxError} (misquotes : error.Misquotes text offset) :
    ¬ error.Quotes text offset := by
  rintro (⟨ending, -⟩ | quoted)
  · -- None of the fragments is the one of the end.
    cases misquotes with
    | identity => exact absurd (show Text.ofString "id" = "end of query" from ending) (by decide)
    | opening => exact absurd (show Text.ofString "(" = "end of query" from ending) (by decide)
    | closing => exact absurd (show Text.ofString ")" = "end of query" from ending) (by decide)
  · cases misquotes with
    | identity stands =>
      obtain ⟨after, shape⟩ := stands
      rw [← shape] at quoted
      exact absurd (List.cons_prefix_cons.mp quoted).1 (by decide)
    | opening stands =>
      exact Text.not_prefix_of_readsAt stands rfl (by decide) (by decide) (by decide) quoted
    | closing stands =>
      rcases stands with rfl | ⟨word, listed, stands⟩
      · exact not_prefix_of_end (by decide) quoted
      · simp only [Query.firstWords, List.mem_cons, List.not_mem_nil, or_false] at listed
        rcases listed with rfl | rfl | rfl | rfl | rfl
        all_goals exact Text.not_prefix_of_readsAt stands rfl (by decide) (by decide) (by decide) quoted

end SyntaxError

section Known

open Query

variable {text operators : Text} {tokens : List Token} {ending token : Token}

/-- What stands where a token of the text says. -/
theorem prefix_of_known (ran : (Lexer.start text operators).run = .ok (tokens, ending)) (member : token ∈ tokens)
    (placed : token.position = some place) : token.text <+: text.drop place.offset := by
  obtain ⟨_, found, before, after, shape, starts⟩ := standsIn_of_run ran token member
  cases placed.symm.trans found
  rw [shape, ← starts, List.drop_left]
  exact List.prefix_append _ _

theorem offset_of_ending (ran : (Lexer.start text operators).run = .ok (tokens, ending))
    (placed : ending.position = some place) : place.offset = text.beforeZero.length := by
  cases placed.symm.trans (Lexer.position_ending ran)
  rw [Position.offset_advance]
  exact Nat.zero_add _

/-- Errors at tokens of the text quote what stands there, and so do those at its end. -/
theorem quotes_of_known (ran : (Lexer.start text operators).run = .ok (tokens, ending))
    (member : token ∈ ending :: tokens) (placed : token.position = some place) (cause : Cause) :
    SyntaxError.Quotes ⟨token.position, token.display, cause⟩ text place.offset := by
  obtain ⟨traced, ends⟩ := Lexer.run_traced ran
  rcases List.mem_cons.mp member with rfl | inside
  · exact .inl ⟨by simp [Token.display, ends], offset_of_ending ran placed⟩
  · have written := traced.written token inside
    have display : token.display = token.text := by
      unfold Token.display
      split
      · rename_i kind
        rw [kind] at written
        cases written
      · rfl
    rw [display]
    exact .inr (prefix_of_known ran inside placed)

theorem position_of_known (ran : (Lexer.start text operators).run = .ok (tokens, ending))
    (member : token ∈ ending :: tokens) : ∃ place, token.position = some place := by
  rcases List.mem_cons.mp member with rfl | inside
  · exact ⟨_, Lexer.position_ending ran⟩
  · obtain ⟨place, found, -⟩ := standsIn_of_run ran token inside
    exact ⟨place, found⟩

/-- A keyword of the text can be read where it says. -/
theorem readsAt_of_known (ran : (Lexer.start text operators).run = .ok (tokens, ending))
    (member : token ∈ ending :: tokens) (placed : token.position = some place)
    (is : token.isKeyword word = true) : text.ReadsAt place.offset word := by
  rcases List.mem_cons.mp member with rfl | inside
  · have kind := Token.kind_of_isKeyword is
    rw [(Lexer.run_traced ran).2] at kind
    cases kind
  · refine ⟨token.text, ?_, prefix_of_known ran inside placed⟩
    simp only [Token.isKeyword, Bool.and_eq_true] at is
    exact is.2

theorem word_of_isBoundary {token : Token}
    (boundary : (loneClause? token).isSome = true ∨ (byClause? token).isSome = true) :
    ∃ word ∈ firstWords, token.isKeyword word = true := by
  rcases boundary with lone | paired
  · unfold loneClause? at lone
    split at lone
    · rename_i is
      exact ⟨"WHERE", by decide, is⟩
    split at lone
    · rename_i is
      exact ⟨"LIMIT", by decide, is⟩
    split at lone
    · rename_i is
      exact ⟨"OFFSET", by decide, is⟩
    · cases lone
  · unfold byClause? at paired
    split at paired
    · rename_i is
      exact ⟨"GROUP", by decide, is⟩
    split at paired
    · rename_i is
      exact ⟨"ORDER", by decide, is⟩
    · cases paired

theorem quotes_or_misquotes_of_raised {failure : QueryError} {error : SyntaxError}
    (ran : (Lexer.start text operators).run = .ok (tokens, ending))
    (raised : Raised (· ∈ ending :: tokens) failure) (shape : failure = .malformed error)
    (placed : error.position = some place) :
    error.Quotes text place.offset ∨ error.Misquotes text place.offset := by
  cases raised with
  | schema => cases shape
  | token is matched =>
    cases shape
    exact .inl (quotes_of_known ran is placed _)
  | unplaced =>
    cases shape
    cases placed
  | @counted token cause is word wild cause_ =>
    cases shape
    have inside : token ∈ tokens := by
      refine (List.mem_cons.mp is).resolve_left ?_
      rintro rfl
      rw [(Lexer.run_traced ran).2] at word
      cases word
    have display : Token.display { token with text := "id" } = "id" := by simp [Token.display, word]
    rw [display]
    exact .inr (.identity (wild ▸ prefix_of_known ran inside placed) cause_)
  | opened is where_ =>
    cases shape
    exact .inr (.opening (readsAt_of_known ran is placed where_))
  | @closed next cause is ends cause_ =>
    cases shape
    rcases ends with kind | kind | boundary
    · have same : next = ending := by
        refine (List.mem_cons.mp is).resolve_right fun inside => ?_
        have written := (Lexer.run_traced ran).1.written next inside
        rw [kind] at written
        cases written
      subst same
      exact .inr (.closing (.inl (offset_of_ending ran placed)) cause_)
    · -- The bracket that ends a subquery is there.
      have inside : next ∈ tokens := by
        refine (List.mem_cons.mp is).resolve_left ?_
        rintro rfl
        rw [(Lexer.run_traced ran).2] at kind
        cases kind
      have stands := prefix_of_known ran inside placed
      rw [Lexer.texts_of_closing ran next inside kind] at stands
      exact .inl (.inr stands)
    · obtain ⟨word, listed, is_⟩ := word_of_isBoundary boundary
      exact .inr (.closing (.inr ⟨word, listed, readsAt_of_known ran is placed is_⟩) cause_)

theorem exists_of_windows {failure : QueryError}
    (listed : selectList ending .first (tokens.drop 1) = .ok (items, rest))
    (failed : windows ending (rest.drop 1) = .error failure) :
    ∃ token ∈ ending :: tokens, ∃ cause, failure = .atToken token cause := by
  have inside : ∀ token ∈ rest.drop 1, token ∈ ending :: tokens := by
    intro token member
    have behind := (suffix_of_selectList listed).subset (List.mem_of_mem_drop member)
    exact .tail _ (List.mem_of_mem_drop behind)
  obtain ⟨token, cause, member, same, -⟩ := fails_windows inside (.head _) failure failed
  exact ⟨token, member, cause, same⟩

end Known

namespace Compiler

variable {compiler : Compiler} {text : Text} {failure : QueryError} {error : SyntaxError} {place : Position}

/-- What an error quotes stands where it points, or is one of the texts that never do. -/
theorem quotes_or_misquotes (refusal : compiler.Refusal text failure) (shape : failure = .malformed error)
    (placed : error.position = some place) :
    error.Quotes text place.offset ∨ error.Misquotes text place.offset := by
  cases refusal with
  | lexed failed =>
    cases shape
    obtain ⟨before, rest, _, _, whole, -, -, -, rfl⟩ := Lexer.run_error failed
    cases placed
    refine .inl (.inr ?_)
    have offset : (Position.start.advance before).offset = before.length := by
      rw [Position.offset_advance]
      exact Nat.zero_add _
    have behind : text.drop (Position.start.advance before).offset = Text.ascii '\'' :: rest := by
      rw [offset, show text = before ++ Text.ascii '\'' :: rest from whole, List.drop_left]
    exact ⟨[], (List.append_nil _).trans behind.symm⟩
  | scanned ran listed failed =>
    obtain ⟨token, member, cause, rfl⟩ := exists_of_windows listed failed
    cases shape
    exact .inl (quotes_of_known ran member placed cause)
  | raised ran raised => exact quotes_or_misquotes_of_raised ran raised shape placed

/-- An error without a place is about a relationship that a restriction has as a property. -/
theorem unplaced_of_refusal (refusal : compiler.Refusal text failure) (shape : failure = .malformed error)
    (unplaced : error.position = none) : ∃ path, error = ⟨none, path, .wholeRelationship path⟩ := by
  cases refusal with
  | lexed failed =>
    cases shape
    obtain ⟨_, _, _, _, -, -, -, -, rfl⟩ := Lexer.run_error failed
    cases unplaced
  | scanned ran listed failed =>
    obtain ⟨token, member, cause, rfl⟩ := exists_of_windows listed failed
    cases shape
    obtain ⟨place, placed⟩ := position_of_known ran member
    cases placed.symm.trans unplaced
  | @raised tokens ending _ ran raised =>
    have known : ∀ {token : Token}, token ∈ ending :: tokens → token.position ≠ none := by
      intro token member nowhere
      obtain ⟨place, placed⟩ := position_of_known ran member
      cases placed.symm.trans nowhere
    cases raised with
    | schema => cases shape
    | @unplaced path =>
      cases shape
      exact ⟨path, rfl⟩
    | token is _ | counted is _ _ _ | opened is _ | closed is _ _ =>
      cases shape
      exact absurd unplaced (known is)

/-- What a syntax error quotes stands in the text where the error points, unless it quotes the identity for a
wildcard that is counted or one of the brackets around the restriction of a window: then it never does. An
error that points nowhere is about a relationship that a restriction has as a property. -/
theorem quotes_iff_not_misquotes (compiler : Compiler) (text : Text) (error : SyntaxError)
    (failed : compiler.compile text = .error (.malformed error)) :
    (∀ place, error.position = some place →
      (error.Quotes text place.offset ↔ ¬ error.Misquotes text place.offset)) ∧
    (error.position = none → ∃ path, error = ⟨none, path, .wholeRelationship path⟩) := by
  have refusal := refusal_of_compile failed
  refine ⟨?_, unplaced_of_refusal refusal rfl⟩
  intro place placed
  constructor
  · intro quotes misquotes
    exact SyntaxError.not_quotes_of_misquotes misquotes quotes
  · intro never
    exact (quotes_or_misquotes refusal rfl placed).resolve_right never

/-- A subquery with an empty restriction in brackets. -/
def hollowText : Text := "SELECT name FROM Coop WHERE whole IN (SELECT id FROM Coop WHERE ())"

def hollowError : SyntaxError := ⟨some ⟨1, 66, 65⟩, ")", .emptyRestriction⟩

theorem coops_quoted : coopCompiler.compile hollowText = .error (.malformed hollowError) ∧
    hollowError.Quotes hollowText 65 ∧ ¬ hollowError.Misquotes hollowText 65 := by
  have refused : failure? (coopCompiler.compile hollowText) = some (.malformed hollowError) := by decide +kernel
  have failed := failure?_eq_some.mp refused
  have quotes : hollowError.Quotes hollowText 65 := by decide
  exact ⟨failed, quotes, ((quotes_iff_not_misquotes coopCompiler hollowText hollowError failed).1 _ rfl).mp quotes⟩

def negatedText : Text := "SELECT name FROM Coop WHERE NOT"

def countedText : Text := "SELECT COUNT(parts.id), COUNT(*) FROM Coop"

def nestedText : Text := "SELECT name FROM Coop WHERE whole IN (SELECT id FROM Coop WHERE size = 1)"

/-- What is quoted does not stand there for a negation of nothing, for a wildcard that is counted beside a
collection, and for a subquery whose restriction is a level too deep. -/
theorem coops_misquoted :
    (failure? (coopCompiler.compile negatedText) = some (.malformed ⟨some ⟨1, 32, 31⟩, ")", .emptyRestriction⟩) ∧
      ¬ SyntaxError.Quotes ⟨some ⟨1, 32, 31⟩, ")", .emptyRestriction⟩ negatedText 31) ∧
    (failure? (coopCompiler.compile countedText) = some (.malformed ⟨some ⟨1, 31, 30⟩, "id", .mixedAggregates⟩) ∧
      ¬ SyntaxError.Quotes ⟨some ⟨1, 31, 30⟩, "id", .mixedAggregates⟩ countedText 30) ∧
    failure? ({ coopCompiler with maxDepth := 3 }.compile nestedText) =
      some (.malformed ⟨some ⟨1, 59, 58⟩, "(", .tooDeep 3⟩) ∧
    ¬ SyntaxError.Quotes ⟨some ⟨1, 59, 58⟩, "(", .tooDeep 3⟩ nestedText 58 := by
  decide +kernel

end Compiler

end RecordQuery
