import RecordQuery.Proofs.Grammar.Restriction
import RecordQuery.Proofs.Grammar.Select
import RecordQuery.Proofs.Grammar.Window

namespace RecordQuery

open Query

namespace Compiler

variable {compiler : Compiler} {read : RestrictionReader} {tokens rest : List Token}

/-- A select list, a type and clauses that make sense in the schema. -/
structure Parts (compiler : Compiler) (tokens : List Token) where
  select : Token
  phrase : List Token
  items : List SelectItem
  from_ : Token
  name : Token
  type : RecordType
  selected : List Selected
  clauses : List Token
  found : List Window
  shape : tokens = select :: (phrase ++ from_ :: name :: clauses)
  selects : select.isKeyword "SELECT" = true
  listed : Listed ItemPhrase phrase items
  separates : from_.isKeyword "FROM" = true
  word : name.kind = .word
  resolved : compiler.schema.resolve? compiler.packages name.text = some type
  bound : bindSelect compiler.schema type none items = .ok selected
  split : Windows [] clauses found

/-- A query compiles if it has its parts and they go together. -/
theorem query_eq_ok_iff (notWord : ending.kind ≠ .word) :
    compiler.query read isSubquery ending tokens = .ok criteria ↔
      ∃ parts : compiler.Parts tokens, assemble compiler.schema read isSubquery ending parts.type
        parts.selected parts.found = .ok criteria := by
  rw [query]
  simp only [guard_eq_ok, bind_eq_ok, Bool.not_eq_true, Bool.not_eq_false', ne_eq, Decidable.not_not]
  constructor
  · rintro ⟨selects, ⟨items, after⟩, listed, word, compiled⟩
    cases tokens with
    | nil => cases listed
    | cons select tokens =>
      obtain ⟨phrase, from_, rfl, separates, items⟩ := (selectList_eq_ok_iff (by decide)).mp listed
      cases after with
      | nil => exact absurd word notWord
      | cons name clauses =>
        split at compiled
        · rename_i type resolved
          obtain ⟨selected, bound, compiled⟩ := bind_eq_ok.mp compiled
          obtain ⟨found, split, assembled⟩ := bind_eq_ok.mp compiled
          exact ⟨⟨select, phrase, _, from_, name, type, selected, clauses, found, rfl, selects, items,
            separates, word, resolved, bound, windows_eq_ok_iff.mp split⟩, assembled⟩
        · cases compiled
  · rintro ⟨⟨select, phrase, items, from_, name, type, selected, clauses, found, rfl, selects, listed,
      separates, word, resolved, bound, split⟩, assembled⟩
    refine ⟨selects, ⟨items, name :: clauses⟩, ?_, word, ?_⟩
    · exact (selectList_eq_ok_iff (by decide)).mpr ⟨phrase, from_, rfl, separates, listed⟩
    · simp only [List.headD_cons, resolved, bind_eq_ok]
      exact ⟨selected, bound, found, windows_eq_ok_iff.mpr split, assembled⟩

/-- The tokens of a query that compiles are balanced. -/
theorem balanced_of_query (notWord : ending.kind ≠ .word)
    (compiled : compiler.query read isSubquery ending tokens = .ok criteria) :
    Balanced 0 tokens := by
  obtain ⟨parts, -⟩ := (query_eq_ok_iff notWord).mp compiled
  rw [parts.shape]
  have select : Balanced 0 [parts.select] :=
    balanced_of_words (by simp [Token.kind_of_isKeyword parts.selects])
  have words : Balanced 0 [parts.from_, parts.name] :=
    balanced_of_words (by simp [Token.kind_of_isKeyword parts.separates, parts.word])
  exact select.append ((parts.listed.balanced ItemPhrase.balanced).append (words.append parts.split.balanced))

theorem balanced_of_subquery (closes : closing.kind = .closing)
    (compiled : compiler.subquery depth closing tokens = .ok criteria) : Balanced 0 tokens := by
  cases depth with
  | zero => cases compiled
  | succ depth => exact balanced_of_query (by simp [closes]) compiled

/-- The reader of restrictions accepts exactly what the grammar derives. -/
theorem reads_restriction (compiler : Compiler) (depth : Nat) (ending : Token) :
    Reads (compiler.restriction depth) (compiler.Derives depth) ending := by
  induction depth with
  | zero =>
    intro tokens _ restriction rest
    constructor
    · intro yields
      exact absurd yields not_yields_error
    · rintro ⟨phrase, _, derived⟩
      exact derived.elim
  | succ depth ih =>
    intro tokens written restriction rest
    constructor
    · exact phrase_of_yields ih written
    · rintro ⟨phrase, rfl, derived⟩
      exact yields_of_phrase ih (fun _ _ _ => balanced_of_subquery) written derived

/-- The reader of restrictions accepts exactly the phrases of the grammar, at whatever depth and
whatever follows; so tokens start with one phrase at most, which stands for one restriction, and
`AND` and `OR` never join restrictions in the same brackets. -/
theorem restriction_yields_iff_derives (compiler : Compiler) (depth : Nat) (ending : Token)
    (tokens : List Token) (written : ∀ token ∈ tokens, token.kind.isWritten = true) :
    (∀ restriction rest, Yields (compiler.restriction depth ending tokens) restriction rest ↔
      ∃ phrase, tokens = phrase ++ rest ∧ compiler.Derives depth phrase restriction) ∧
    (∀ phrase rest other left one two, tokens = phrase ++ rest → tokens = other ++ left →
      compiler.Derives depth phrase one → compiler.Derives depth other two →
        phrase = other ∧ one = two) ∧
    (∀ opening phrase first links connective second others token other left,
      tokens = opening :: (phrase ++ (links ++ token :: left)) → opening.kind = .opening →
      compiler.Derives (depth - 1) phrase first →
      ChainPhrase (compiler.Derives (depth - 1)) connective links (second :: others) →
      token.Spells (.connect other) → other ≠ connective →
        ∀ restriction rest, ¬ Yields (compiler.restriction depth ending tokens) restriction rest) := by
  have reads := reads_restriction compiler depth ending tokens written
  refine ⟨reads, ?_, ?_⟩
  · intro phrase rest other left one two shape again derived twice
    have first := (reads one rest).mpr ⟨phrase, shape, derived⟩
    have second := (reads two left).mpr ⟨other, again, twice⟩
    obtain ⟨rfl, rfl⟩ := first.unique second
    exact ⟨List.append_cancel_right (shape.symm.trans again), rfl⟩
  · rintro opening phrase first links connective second others token other left rfl opens derived
      chain joint mixed restriction rest
    cases depth with
    | zero => exact derived.elim
    | succ depth =>
      exact not_yields_mixed (reads_restriction compiler depth ending)
        (fun token member => written token (.tail _ member)) opens derived chain joint mixed

/-- `(name = 'x' or NOT age ISNULL)` before a comma. -/
theorem restriction_yields_disjunction :
    Yields (restriction ⟨⟨[]⟩, ⟨[], []⟩, [], 32⟩ 3 .unplacedEnd
      [⟨.opening, "(", none⟩, ⟨.word, "name", none⟩, ⟨.operator, "=", none⟩, ⟨.string, "'x'", none⟩,
        ⟨.word, "or", none⟩, ⟨.word, "NOT", none⟩, ⟨.word, "age", none⟩, ⟨.word, "ISNULL", none⟩,
        ⟨.closing, ")", none⟩, ⟨.comma, ",", none⟩])
      (.junction .or [.comparison .eq "name" (.text "x"), .not (.isNull "age")])
      [⟨.comma, ",", none⟩] := by
  have name : Phrase (Derives ⟨⟨[]⟩, ⟨[], []⟩, [], 32⟩ 1) (subquery ⟨⟨[]⟩, ⟨[], []⟩, [], 32⟩ 1)
      [⟨.word, "name", none⟩, ⟨.operator, "=", none⟩, ⟨.string, "'x'", none⟩]
      (.comparison .eq "name" (.text "x")) :=
    .comparison ⟨rfl, by decide⟩ ⟨.inr rfl, by decide⟩ (.inl rfl)
  have age : Phrase (Derives ⟨⟨[]⟩, ⟨[], []⟩, [], 32⟩ 0) (subquery ⟨⟨[]⟩, ⟨[], []⟩, [], 32⟩ 0)
      [⟨.word, "age", none⟩, ⟨.word, "ISNULL", none⟩] (.isNull "age") :=
    .isNull ⟨rfl, by decide⟩ ⟨.inl rfl, by decide⟩
  have negated : Phrase (Derives ⟨⟨[]⟩, ⟨[], []⟩, [], 32⟩ 1) (subquery ⟨⟨[]⟩, ⟨[], []⟩, [], 32⟩ 1)
      [⟨.word, "NOT", none⟩, ⟨.word, "age", none⟩, ⟨.word, "ISNULL", none⟩] (.not (.isNull "age")) :=
    .not ⟨.inl rfl, by decide⟩ age
  have joint : Token.Spells ⟨.word, "or", none⟩ (.connect .or) := ⟨.inl rfl, by decide⟩
  have more : ChainPhrase (Derives ⟨⟨[]⟩, ⟨[], []⟩, [], 32⟩ 2) _ _ _ := .cons joint negated .nil
  have whole := @Phrase.junction _ (subquery ⟨⟨[]⟩, ⟨[], []⟩, [], 32⟩ 2) ⟨.opening, "(", none⟩ _ _ _ _ _
    _ ⟨.closing, ")", none⟩ rfl name more rfl
  exact ((restriction_yields_iff_derives _ 3 _ _ (by decide)).1 _ _).mpr ⟨_, rfl, whole⟩

end Compiler
end RecordQuery
