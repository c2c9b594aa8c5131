import RecordQuery.Proofs.Compile.Assembly
import RecordQuery.Proofs.Document.RoundTrip
import RecordQuery.Proofs.Print.Clauses
import RecordQuery.Proofs.Print.Placement

/-! Truth values and whole numbers in a restriction. They are written without quotes, so a negative number
depends on what stands before it: after operator characters, a bracket or a comma its sign belongs to it,
after a word it is torn off and the restriction is refused. -/
namespace RecordQuery

open Query

theorem Text.ofSymbol?_ofInt (n : Int) : Operator.ofSymbol? (ofInt n) = none := by
  have digits : ∀ n, ∀ b ∈ ofNat n, b < 0x80 := by
    intro n b member
    have digit := isDigit_of_mem_ofNat member
    simp only [isDigit, Bool.and_eq_true, decide_eq_true_eq] at digit
    exact UInt8.lt_of_le_of_lt digit.2 (by decide)
  have low : ∀ b ∈ ofInt n, b < 0x80 := by
    cases n with
    | ofNat n => exact digits n
    | negSucc n => exact List.forall_mem_cons.mpr ⟨by decide, digits (n + 1)⟩
  have starts : ∀ operator ∈ Operator.all,
      operator.symbol.head?.any (fun c => c < 0x80 && 57 < foldCode c.toNat) = true := by
    decide +kernel
  exact ofSymbol?_of_ascii low fun operator member => sameFold_ofInt n (starts operator member)

namespace Value

/-- A truth value or a whole number. -/
def isBare : Value → Bool
  | bool _ | int _ => true
  | _ => false

def isNegative : Value → Bool
  | int n => n < 0
  | _ => false

variable {value : Value} {comparator : Comparator}

theorem literal_of_isBare (bare : value.isBare = true) : value.literal = value.written := by
  cases value with
  | bool | int => rfl
  | _ => cases bare

theorem isWord_written (bare : value.isBare = true) : value.written.isWord = true := by
  cases value with
  | bool b => cases b <;> decide
  | int n => exact Text.isWord_ofInt n
  | _ => cases bare

theorem isSigned_written (bare : value.isBare = true) : value.written.isSigned = value.isNegative := by
  cases value with
  | bool b => cases b <;> decide
  | int n => exact Text.isSigned_ofInt n
  | _ => cases bare

theorem ofSymbol?_written (bare : value.isBare = true) : Operator.ofSymbol? value.written = none := by
  cases value with
  | bool b => cases b <;> decide
  | int n => exact Text.ofSymbol?_ofInt n
  | _ => cases bare

theorem sameFold_written (bare : value.isBare = true) : value.written.sameFold "SELECT" = false := by
  cases value with
  | bool b => cases b <;> decide
  | int n => exact Text.sameFold_ofInt n (by decide)
  | _ => cases bare

theorem scanned_written (bare : value.isBare = true) : Scanned value.literal value.written.lexemes := by
  rw [literal_of_isBare bare]
  exact scanned_word (isWord_written bare)

/-- Before a sign there are operator characters, or there is no sign. -/
theorem lexemes_of_whole (bare : value.isBare = true)
    (whole : (comparator.isPattern && value.isNegative) = false) :
    value.written.lexemes (!comparator.isPattern) = [Lexeme.word value.written] := by
  rw [Text.lexemes, if_neg]
  rintro ⟨signed, word⟩
  rw [isSigned_written bare] at signed
  rw [Bool.not_eq_false'] at word
  rw [word, signed] at whole
  cases whole

theorem lexemes_of_isNegative (negative : value.isNegative = true) :
    value.written.lexemes false = [(.operator, Text.ofString "-"), Lexeme.word (value.written.drop 1)] := by
  cases value with
  | int n =>
    have signed : (int n).written.isSigned = true := (Text.isSigned_ofInt n).trans negative
    rw [Text.lexemes, if_pos ⟨signed, rfl⟩]
    cases n with
    | ofNat n => exact absurd negative (by simp [isNegative])
    | negSucc n => rfl
  | _ => cases negative

end Value

theorem Token.value_of_word {token : Token} (is : token.lexeme = Lexeme.word w) : token.value = w := by
  obtain ⟨kind, rfl⟩ := Token.lexeme_eq is
  simp [Token.value, kind]

section Scanning

variable {path : Text} {nested : Bool}

theorem scanned_comparison {value : Value} (word : path.isWord = true) (comparator : Comparator)
    (bare : value.isBare = true) :
    Scanned ((Restriction.comparison comparator path value).write nested) fun fresh =>
      path.lexemes fresh ++ comparator.lexeme :: value.written.lexemes (!comparator.isPattern) := by
  intro fresh rest lexemes stops scans
  rw [Restriction.write]
  simp only [List.append_assoc, List.cons_append]
  exact .word word (Text.stops_space _)
    (.space (.compared comparator (Value.scanned_written bare) stops scans))

theorem scanned_inValues {values : List Value} (word : path.isWord = true) (filled : values ≠ [])
    (bare : ∀ value ∈ values, value.isBare = true) :
    Scanned ((Restriction.inValues path values).write nested) fun fresh =>
      path.lexemes fresh ++ Lexeme.word "IN" :: Lexeme.opening ::
        (separated true (values.map (·.written.lexemes)) ++ [Lexeme.closing]) := by
  intro fresh rest lexemes stops scans
  have list := scanned_list fun value member => Value.scanned_written (bare value member)
  rw [Restriction.write]
  simp only [List.append_assoc, List.cons_append, List.nil_append]
  exact .membership word
    (scanned_separated list (by simpa using filled) true _ _ (Text.stops_closing _) (.closing scans))

end Scanning

namespace Compiler

variable {compiler : Compiler} {depth : Nat} {restriction : Restriction} {ending : Token} {tokens : List Token}

section Refusal

/-- Operator characters that make no operator are refused in the place of an operand. -/
theorem restriction_of_unknown {property operator sign : Token} {comparator : Comparator}
    (path : property.IsPath) (compares : operator.Spells (.compare comparator))
    (kind : sign.kind = .operator) (unknown : Operator.ofSymbol? sign.text = none) :
    compiler.restriction (depth + 1) ending (property :: operator :: sign :: tokens) =
      .error (.atToken sign (.unknownOperator sign.text)) := by
  have subject : Part.ofToken property = .operand := by simp [Part.ofToken, path.1, path.2]
  have relation : Part.ofToken operator = .relation (.compare comparator) :=
    Part.ofToken_eq_ofOperator.mpr compares
  have refused : Part.ofToken sign = .unknown := by simp [Part.ofToken, kind, unknown]
  change level _ _ ending 0 .start _ = _
  rw [level.eq_def]
  simp only [subject, path.1, ↓reduceIte]
  rw [level.eq_def]
  simp only [relation]
  rw [level.eq_def]
  simp only [refused]
  rfl

theorem restriction_of_failed {opening : Token} (opens : opening.kind = .opening)
    (failed : compiler.restriction depth ending tokens = .error error) :
    compiler.restriction (depth + 1) ending (opening :: tokens) = .error error := by
  change level _ _ ending 0 .start _ = _
  rw [level.eq_def]
  simp only [Part.ofToken_eq_opening.mpr opens, failed]
  rfl

/-- A clause is refused for what is wrong with the restriction at its start. -/
theorem readWhere_of_failed {window : Window} {next : Token} (filled : window.tokens ≠ [])
    (failed : ∀ rest, compiler.restriction depth next (window.tokens ++ rest) = .error error) :
    readWhere (compiler.restriction (depth + 1)) window next = .error error := by
  have opened : compiler.restriction (depth + 1) next (⟨.opening, "(", window.keyword.position⟩ ::
      (window.tokens ++ [⟨.closing, ")", next.position⟩])) = .error error :=
    restriction_of_failed rfl (failed _)
  rw [readWhere, List.isEmpty_eq_false_iff.mpr filled]
  simp only [List.cons_append, opened]
  rfl

end Refusal

/-- Reads what a lexer has before it as the last clause of a query, after the given keyword. -/
def readClause (compiler : Compiler) (depth : Nat) (keyword : Token) (l : Lexer) :
    Except QueryError Restriction := do
  let (tokens, ending) ← l.run.mapError .malformed
  readWhere (compiler.restriction depth) ⟨.where_, keyword, none, tokens⟩ ending

section Clause

variable {text : Text} {piece : Piece} {keyword : Token} {position : Position} {last : TokenKind}

theorem exists_run_of_scanned (scanned : Scanned text piece) (position : Position) (last : TokenKind) :
    ∃ tokens ending, (⟨Lexer.defaultOperators, text, position, last⟩ : Lexer).run = .ok (tokens, ending) ∧
      tokens.map Token.lexeme = piece (Lexer.beforeValue last) := by
  have scans := scanned (Lexer.beforeValue last) [] [] Text.stops_nil .nil
  rw [List.append_nil, List.append_nil] at scans
  exact scans position last rfl

/-- The brackets around a clause take one level, so what stands in them has one less. -/
theorem readClause_of_derives (scanned : Scanned text piece)
    (derives : ∀ tokens, tokens.map Token.lexeme = piece (Lexer.beforeValue last) →
      compiler.Derives (depth + 1) tokens restriction) :
    compiler.readClause (depth + 2) keyword ⟨Lexer.defaultOperators, text, position, last⟩ =
      .ok restriction := by
  obtain ⟨tokens, ending, ran, same⟩ := exists_run_of_scanned scanned position last
  have derived := derives tokens same
  have filled : tokens ≠ [] := by
    rintro rfl
    cases derived
  rw [readClause, ran]
  exact (readWhere_eq_ok_iff_derives (Lexer.run_traced ran).1.written).mpr
    ⟨filled, .bracket rfl derived rfl⟩

theorem readClause_of_failed (scanned : Scanned text piece) (filled : piece (Lexer.beforeValue last) ≠ [])
    (fails : ∀ tokens, tokens.map Token.lexeme = piece (Lexer.beforeValue last) →
      ∃ place, ∀ ending rest, compiler.restriction (depth + 1) ending (tokens ++ rest) =
        .error (.malformed ⟨place, fragment, cause⟩)) :
    ∃ place, compiler.readClause (depth + 2) keyword ⟨Lexer.defaultOperators, text, position, last⟩ =
      .error (.malformed ⟨place, fragment, cause⟩) := by
  obtain ⟨tokens, ending, ran, same⟩ := exists_run_of_scanned scanned position last
  obtain ⟨place, failed⟩ := fails tokens same
  have filled : tokens ≠ [] := by
    rintro rfl
    exact filled same.symm
  refine ⟨place, ?_⟩
  rw [readClause, ran]
  exact readWhere_of_failed filled (failed ending)

end Clause

section Leaves

variable {path : Text} {value : Value} {comparator : Comparator} {fresh : Bool}

/-- The token of a plain path, and those after it. -/
theorem path_of_lexemes (plain : path.isPlain = true) (unlike : Operator.ofSymbol? path = none)
    (same : tokens.map Token.lexeme = path.lexemes fresh ++ lexemes) :
    ∃ property rest, tokens = property :: rest ∧ property.IsPath ∧ property.text = path ∧
      rest.map Token.lexeme = lexemes := by
  rw [Text.lexemes_of_unsigned (Text.not_isSigned_of_isPlain plain), List.singleton_append] at same
  obtain ⟨property, rest, rfl, named, after⟩ := List.map_eq_cons_iff.mp same
  obtain ⟨kind, rfl⟩ := Token.lexeme_eq named
  exact ⟨property, rest, rfl, ⟨kind, unlike⟩, rfl, after⟩

theorem derives_comparison (plain : path.isPlain = true) (unlike : Operator.ofSymbol? path = none)
    (bare : value.isBare = true) (whole : (comparator.isPattern && value.isNegative) = false)
    (same : tokens.map Token.lexeme = path.lexemes fresh ++
      comparator.lexeme :: value.written.lexemes (!comparator.isPattern)) :
    compiler.Derives (depth + 1) tokens (.comparison comparator path (.text value.written)) := by
  obtain ⟨property, rest, rfl, isPath, rfl, after⟩ := path_of_lexemes plain unlike same
  rw [Value.lexemes_of_whole bare whole] at after
  obtain ⟨operator, last, rfl, compares, after⟩ := List.map_eq_cons_iff.mp after
  obtain ⟨operand, rfl, is⟩ := List.map_eq_singleton_iff.mp after
  obtain ⟨word, text⟩ := Token.lexeme_eq is
  rw [← Token.value_of_word is]
  exact .comparison isPath (compares_of_lexeme compares)
    (.inr ⟨word, text ▸ Value.ofSymbol?_written bare⟩)

/-- The sign comes first, in the place of the operand. -/
theorem restriction_of_torn (plain : path.isPlain = true) (unlike : Operator.ofSymbol? path = none)
    (negative : value.isNegative = true)
    (same : tokens.map Token.lexeme = path.lexemes fresh ++ comparator.lexeme :: value.written.lexemes false) :
    ∃ place, ∀ ending rest, compiler.restriction (depth + 1) ending (tokens ++ rest) =
      .error (.malformed ⟨place, "-", .unknownOperator "-"⟩) := by
  obtain ⟨property, rest, rfl, isPath, rfl, after⟩ := path_of_lexemes plain unlike same
  rw [Value.lexemes_of_isNegative negative] at after
  obtain ⟨operator, last, rfl, compares, after⟩ := List.map_eq_cons_iff.mp after
  obtain ⟨sign, number, rfl, signs, -⟩ := List.map_eq_cons_iff.mp after
  obtain ⟨kind, text⟩ := Token.lexeme_eq signs
  have unknown : Operator.ofSymbol? sign.text = none := by
    rw [text]
    decide
  refine ⟨sign.position, fun ending rest => ?_⟩
  have refused : compiler.restriction (depth + 1) ending (property :: operator :: sign :: (number ++ rest)) =
      .error (.atToken sign (.unknownOperator sign.text)) :=
    restriction_of_unknown isPath (compares_of_lexeme compares) kind unknown
  rwa [QueryError.atToken, Token.display, kind, text] at refused

theorem derives_inValues {values : List Value} (plain : path.isPlain = true)
    (unlike : Operator.ofSymbol? path = none) (filled : values ≠ [])
    (bare : ∀ value ∈ values, value.isBare = true)
    (same : tokens.map Token.lexeme = path.lexemes fresh ++ Lexeme.word "IN" :: Lexeme.opening ::
      (separated true (values.map (·.written.lexemes)) ++ [Lexeme.closing])) :
    compiler.Derives (depth + 1) tokens
      (.inValues path (values.map fun value => .text value.written)) := by
  obtain ⟨property, rest, rfl, isPath, rfl, after⟩ := path_of_lexemes plain unlike same
  obtain ⟨operator, brackets, rfl, tests, inside⟩ := List.map_eq_cons_iff.mp after
  obtain ⟨opening, listed, rfl, opens, list⟩ := List.map_eq_cons_iff.mp inside
  obtain ⟨own, ends, rfl, items, closed⟩ := List.map_eq_append_iff.mp list
  obtain ⟨closing, rfl, closes⟩ := List.map_eq_singleton_iff.mp closed
  have phrase : ListPhrase own (values.map fun value => .text value.written) := by
    refine listPhrase_of_pieces ?_ filled items
    intro value member
    refine ⟨_, Text.lexemes_true _, fun token is => ⟨.inl (Token.lexeme_eq is).1, ?_⟩⟩
    rw [Token.value_of_word is]
  obtain ⟨value, others, rfl⟩ := List.exists_cons_of_ne_nil filled
  have first : separated true ((value :: others).map (·.written.lexemes)) =
      Lexeme.word value.written ::
        (separated true ((value :: others).map (·.written.lexemes))).tail := by
    cases others <;> simp [separated, Text.lexemes_true]
  rw [first] at items
  obtain ⟨token, more, rfl, is, -⟩ := List.map_eq_cons_iff.mp items
  have unselected : token.isKeyword "SELECT" = false :=
    (Token.isKeyword_of_lexeme is _).trans (Value.sameFold_written (bare value (.head _)))
  exact .inValues isPath (spells_of_lexeme tests rfl) (Token.lexeme_eq opens).1 unselected phrase
    (Token.lexeme_eq closes).1

end Leaves

/-- Wherever a clause stands and whatever depth is left for it, a property compared with a truth value or a
whole number is read back with the text of the value, by every operator but one: a pattern that is a
negative number is refused, since the sign after the word is taken for an operator. Lists are read back,
whatever numbers they hold. -/
theorem readClause_write_of_isBare (compiler : Compiler) (depth : Nat) (keyword : Token) (position : Position)
    (last : TokenKind) (path : Text) (plain : path.isPlain = true)
    (unlike : Operator.ofSymbol? path = none) :
    (∀ comparator value, value.isBare = true → (comparator.isPattern && value.isNegative) = false →
      compiler.readClause (depth + 2) keyword ⟨Lexer.defaultOperators,
          (Restriction.comparison comparator path value).write false, position, last⟩ =
        .ok (.comparison comparator path (.text value.written))) ∧
    (∀ comparator value, comparator.isPattern = true → value.isNegative = true →
      ∃ place, compiler.readClause (depth + 2) keyword ⟨Lexer.defaultOperators,
          (Restriction.comparison comparator path value).write false, position, last⟩ =
        .error (.malformed ⟨place, "-", .unknownOperator "-"⟩)) ∧
    ∀ values, values ≠ [] → (∀ value ∈ values, value.isBare = true) →
      compiler.readClause (depth + 2) keyword ⟨Lexer.defaultOperators,
          (Restriction.inValues path values).write false, position, last⟩ =
        .ok (.inValues path (values.map fun value => .text value.written)) := by
  have word : path.isWord = true := by rw [Text.isWord, plain, Bool.true_or]
  refine ⟨?_, ?_, ?_⟩
  · intro comparator value bare whole
    exact readClause_of_derives (scanned_comparison word comparator bare)
      fun tokens same => derives_comparison plain unlike bare whole same
  · intro comparator value pattern negative
    have bare : value.isBare = true := by
      cases value with
      | int => rfl
      | _ => cases negative
    have scanned : Scanned ((Restriction.comparison comparator path value).write false) _ :=
      scanned_comparison word comparator bare
    rw [pattern] at scanned
    exact readClause_of_failed scanned (by simp)
      fun tokens same => restriction_of_torn plain unlike negative same
  · intro values filled bare
    exact readClause_of_derives (scanned_inValues word filled bare)
      fun tokens same => derives_inValues plain unlike filled bare same

/-- What a text says of pigeons, as the condition of a query. -/
def readBands (text : Text) : Except QueryError Restriction :=
  (⟨⟨[pigeonType]⟩, ⟨"acme", []⟩, [], 32⟩ : Compiler).readClause 2 ⟨.word, "WHERE", some ⟨1, 1, 0⟩⟩
    ⟨Lexer.defaultOperators, text, ⟨1, 7, 6⟩, .word⟩

theorem readBands_write_of_isBare :
    readBands "mate.band <> -30" = .ok (.comparison .ne "mate.band" (.text "-30")) ∧
      (∃ place, readBands "mate.band LIKE -30" =
        .error (.malformed ⟨place, "-", .unknownOperator "-"⟩)) ∧
      readBands "mate.band IN (-30, true, 7)" =
        .ok (.inValues "mate.band" [.text "-30", .text "true", .text "7"]) := by
  obtain ⟨compared, torn, listed⟩ := readClause_write_of_isBare ⟨⟨[pigeonType]⟩, ⟨"acme", []⟩, [], 32⟩ 0
    ⟨.word, "WHERE", some ⟨1, 1, 0⟩⟩ ⟨1, 7, 6⟩ .word "mate.band" (by decide) (by decide)
  have different := compared .ne (.int (-30)) rfl rfl
  have like := torn .like (.int (-30)) rfl rfl
  have amongst := listed [.int (-30), .bool true, .int 7] (by decide) (by decide)
  have texts :
      (Restriction.comparison .ne "mate.band" (.int (-30))).write false = "mate.band <> -30" ∧
        (Restriction.comparison .like "mate.band" (.int (-30))).write false = "mate.band LIKE -30" ∧
        (Restriction.inValues "mate.band" [.int (-30), .bool true, .int 7]).write false =
          "mate.band IN (-30, true, 7)" ∧
        (Value.int (-30)).written = "-30" ∧ (Value.int 7).written = "7" := by
    decide +kernel
  obtain ⟨writtenDifferent, writtenLike, writtenAmongst, minusThirty, seven⟩ := texts
  rw [writtenDifferent, minusThirty] at different
  rw [writtenLike] at like
  rw [writtenAmongst, List.map, List.map, List.map, List.map, minusThirty, seven] at amongst
  exact ⟨different, like, amongst⟩

/-- Pigeons whose name is like a negative number. -/
def numberedPigeons : Document :=
  ⟨[], "Pigeon", [{ ref := { name := "name" } }], [], [⟨"like", { name := "name" }, [.value (.int (-3))]⟩],
    [], none, none⟩

/-- A document may ask for a pattern that is a negative number, but its text is refused. -/
theorem numberedPigeons_refused :
    ∃ criteria, (⟨⟨[pigeonType]⟩, ⟨"acme", []⟩, 32⟩ : Decoder).decode numberedPigeons = .ok criteria ∧
      ((⟨⟨[pigeonType]⟩, ⟨"acme", []⟩, [], 32⟩ : Compiler).compile criteria.text).toOption = none := by
  have refused : ((⟨⟨[pigeonType]⟩, ⟨"acme", []⟩, 32⟩ : Decoder).decode numberedPigeons).toOption.any
      (fun criteria =>
        ((⟨⟨[pigeonType]⟩, ⟨"acme", []⟩, [], 32⟩ : Compiler).compile criteria.text).toOption.isNone) = true := by
    decide +kernel
  obtain ⟨criteria, found, refused⟩ := (Option.any_eq_true _ _).mp refused
  exact ⟨criteria, toOption_eq_some.mp found, Option.isNone_iff_eq_none.mp refused⟩

end Compiler
end RecordQuery
