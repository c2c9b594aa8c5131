import RecordQuery.Proofs.Print.Query

namespace RecordQuery

open Query

section Phrases

variable {child : Language} {subquery : SubqueryReader} {token : Token} {tokens phrase left : List Token}

/-- What starts with an opening bracket is a restriction in brackets or a junction. -/
theorem Query.Phrase.of_opening (derived : Phrase child subquery phrase found)
    (shape : token :: tokens = phrase ++ left) (opens : token.kind = .opening) :
    (∃ inner closing, tokens = inner ++ closing :: left ∧ child inner found ∧ closing.kind = .closing) ∨
    (∃ inner first connective links second others closing, closing.kind = .closing ∧
      tokens = inner ++ (links ++ closing :: left) ∧ child inner first ∧
      ChainPhrase child connective links (second :: others)) := by
  have other : ∀ {first : Token}, token = first → first.kind ≠ .word ∧ first.kind ≠ .operator := by
    intro first same
    simp [← same, opens]
  cases derived with
  | @bracket _ inner _ closing _ derived closes =>
    obtain ⟨-, rest⟩ := List.cons.inj shape
    exact .inl ⟨inner, closing, by simpa using rest, derived, closes⟩
  | @junction _ inner first connective links second others closing _ derived more closes =>
    obtain ⟨-, rest⟩ := List.cons.inj shape
    exact .inr ⟨inner, first, connective, links, second, others, closing, closes, by simpa using rest,
      derived, more⟩
  | not negates _ =>
    obtain ⟨same, -⟩ := List.cons.inj shape
    obtain ⟨word, operator⟩ := other same
    rcases negates.1 with kind | kind
    · exact absurd kind word
    · exact absurd kind operator
  | comparison path _ _ | isNull path _ | inValues path _ _ _ _ _ | inQuery path _ _ _ _ _ =>
    obtain ⟨same, -⟩ := List.cons.inj shape
    exact absurd path.1 (other same).1

/-- A phrase starts with a bracket, with `NOT` or with a path. -/
theorem Query.Phrase.first (derived : Phrase child subquery phrase found)
    (shape : token :: tokens = phrase ++ left) :
    token.kind = .opening ∨
    (token.Spells .not ∧ ∃ inner restriction, tokens = inner ++ left ∧ child inner restriction) ∨
    token.IsPath := by
  cases derived with
  | bracket opens _ _ | junction opens _ _ _ =>
    obtain ⟨rfl, -⟩ := List.cons.inj shape
    exact .inl opens
  | not negates inner =>
    obtain ⟨rfl, rest⟩ := List.cons.inj shape
    exact .inr (.inl ⟨negates, _, _, rest, inner⟩)
  | comparison path _ _ | isNull path _ | inValues path _ _ _ _ _ | inQuery path _ _ _ _ _ =>
    obtain ⟨rfl, -⟩ := List.cons.inj shape
    exact .inr (.inr path)

/-- After `IN`, brackets that start with `SELECT` hold a query. -/
theorem Query.Phrase.of_subquery {property operator opening select closing : Token}
    {inner after : List Token} (derived : Phrase child subquery phrase found)
    (shape : property :: operator :: opening :: (select :: inner ++ closing :: after) = phrase ++ left)
    (isPath : property.IsPath) (tests : operator.Spells .isIn)
    (selects : select.isKeyword "SELECT" = true) (closes : closing.kind = .closing)
    (balanced : Balanced 0 (select :: inner))
    (balances : ∀ closing tokens query, closing.kind = .closing →
      subquery closing tokens = .ok query → Balanced 0 tokens) :
    ∃ query, subquery closing (select :: inner) = .ok query := by
  have unlike : ∀ {token : Token} {other : Operator}, operator = token → token.Spells other →
      other = .isIn := by
    rintro token other rfl spells
    exact Option.some.inj (spells.2.symm.trans tests.2)
  cases derived with
  | bracket opens _ _ | junction opens _ _ _ =>
    obtain ⟨rfl, -⟩ := List.cons.inj shape
    cases opens.symm.trans isPath.1
  | not negates _ =>
    obtain ⟨rfl, -⟩ := List.cons.inj shape
    cases negates.2.symm.trans isPath.2
  | comparison _ compares _ =>
    simp only [List.cons_append, List.cons.injEq] at shape
    cases unlike shape.2.1 compares
  | isNull _ tests =>
    simp only [List.cons_append, List.cons.injEq] at shape
    cases unlike shape.2.1 tests
  | inValues _ _ _ plain _ _ =>
    simp only [List.cons_append, List.cons.injEq] at shape
    rw [shape.2.2.2.1, plain] at selects
    cases selects
  | @inQuery _ _ _ first last more query _ _ _ _ compiled closesLast =>
    simp only [List.cons_append, List.append_assoc, List.nil_append, List.cons.injEq] at shape
    obtain ⟨-, -, -, rfl, rest⟩ := shape
    have brackets : select :: inner ++ closing :: after = select :: more ++ last :: left := by
      rw [List.cons_append, rest, List.cons_append]
    obtain ⟨same, rfl, -⟩ := closing_unique brackets closes closesLast balanced
      (balances _ _ _ closesLast compiled)
    exact ⟨query, same ▸ compiled⟩

end Phrases

/-- A sign alone is no operator of restrictions. -/
theorem Text.ofSymbol?_of_isSigned {path : Text} (signed : path.isSigned = true) :
    Operator.ofSymbol? (path.take 1) = none := by
  cases path with
  | nil => cases signed
  | cons sign rest =>
    simp only [isSigned, Lexer.isSign, Bool.and_eq_true, Bool.or_eq_true, beq_iff_eq] at signed
    have signs : ∀ sign ∈ [ascii '-', ascii '+'], Operator.ofSymbol? [sign] = none := by decide +kernel
    exact signs sign (by simpa using signed.1)

/-- A path that starts a phrase fits its place, if no clause opens there. -/
theorem fits_of_phrase_lexemes {child : Language} {subquery : SubqueryReader} {path : Text}
    {own more rest phrase left : List Token} (same : own.map Token.lexeme = path.lexemes place.isFresh)
    (quiet : place.isExposed = true → ∃ after, Unbroken after 0 (own ++ more))
    (derived : Phrase child subquery phrase found) (shape : own ++ rest = phrase ++ left) :
    path.Fits place := by
  have whole : place.isFresh = false → path.isSigned = false := by
    intro stale
    by_contra signed
    rw [Bool.not_eq_false] at signed
    rw [Text.lexemes, if_pos ⟨signed, stale⟩] at same
    obtain ⟨sign, _, rfl, is, -⟩ := List.map_eq_cons_iff.mp same
    obtain ⟨kind, text⟩ := Token.lexeme_eq is
    rcases derived.first shape with opens | ⟨negates, -⟩ | isPath
    · cases kind.symm.trans opens
    · have unlike := Text.ofSymbol?_of_isSigned signed
      rw [← text, negates.2] at unlike
      cases unlike
    · cases kind.symm.trans isPath.1
  refine ⟨whole, ?_⟩
  intro exposed
  obtain ⟨after, unbroken⟩ := quiet exposed
  rw [Text.lexemes_of_unsigned (whole (Place.isFresh_of_isExposed exposed))] at same
  obtain ⟨token, rfl, is⟩ := List.map_eq_singleton_iff.mp same
  exact opensClause_of_quiet is (unbroken.2.1 rfl)

/-- No clause opens in tokens that stand outside of brackets. -/
def Place.Quiet (place : Place) (tokens : List Token) : Prop :=
  place.isExposed = true → ∃ after, Unbroken after 0 tokens

theorem Place.Quiet.tail {place : Place} (quiet : place.Quiet (token :: tokens))
    (word : token.kind = .word) : place.Quiet tokens := by
  intro exposed
  obtain ⟨after, unbroken⟩ := quiet exposed
  have later := unbroken.2.2
  rw [openAfter, word] at later
  exact ⟨after, later⟩

theorem Place.Quiet.append {place : Place} (quiet : place.Quiet (tokens ++ more))
    (balanced : Balanced 0 tokens) : place.Quiet tokens ∧ place.Quiet more := by
  constructor
  · intro exposed
    obtain ⟨after, unbroken⟩ := quiet exposed
    exact ⟨_, ((surface_append_iff balanced).mp unbroken).1⟩
  · intro exposed
    obtain ⟨after, unbroken⟩ := quiet exposed
    exact ⟨_, ((surface_append_iff balanced).mp unbroken).2⟩

theorem Place.Quiet.next {place : Place} (quiet : place.Quiet tokens) : place.next.Quiet tokens := by
  intro exposed
  apply quiet
  cases place <;> first | rfl | cases exposed

namespace Compiler

variable {compiler : Compiler} {depth : Nat} {type : RecordType} {place : Place}
  {restriction found : Restriction} {own rest phrase left : List Token}

/-- A nested restriction whose tokens start with a phrase has names that fit. -/
def DerivesOnlyPlaced (compiler : Compiler) (depth : Nat) : Prop :=
  ∀ type place restriction own rest phrase left found, place.isNested = true →
    compiler.Expresses depth type place restriction → place.Quiet own →
    (∀ token ∈ rest, token.kind.isWritten = true) →
    own.map Token.lexeme = restriction.lexemes place → own ++ rest = phrase ++ left →
    compiler.Derives depth phrase found → restriction.Placed place

/-- A subquery that is compiled from its tokens has names that fit. -/
def CompilesOnlyPlaced (compiler : Compiler) (depth : Nat) : Prop :=
  ∀ query closing tokens found, closing.kind = .closing →
    compiler.ExpressesQuery depth true query → tokens.map Token.lexeme = query.lexemes →
    compiler.subquery (depth + 1) closing tokens = .ok found → query.Placed

/-- Tokens of a restriction whose names fit start with no other phrase. -/
theorem phrase_of_placed (nested : place.isNested = true)
    (expresses : compiler.Expresses depth type place restriction) (placed : restriction.Placed place)
    (written : ∀ token ∈ rest, token.kind.isWritten = true)
    (same : own.map Token.lexeme = restriction.lexemes place) (shape : own ++ rest = phrase ++ left)
    (derived : compiler.Derives depth phrase found) : phrase = own ∧ left = rest := by
  have all : ∀ token ∈ own ++ rest, token.kind.isWritten = true := by
    intro token member
    rcases List.mem_append.mp member with inside | later
    · exact (Restriction.enclosed place restriction).written same token inside
    · exact written token later
  have reads := reads_restriction compiler depth .unplacedEnd (own ++ rest) all
  have expected := derivesWritten compiler depth type place restriction own nested expresses placed same
  have one := (reads restriction rest).mpr ⟨own, rfl, expected⟩
  have two := (reads found left).mpr ⟨phrase, shape, derived⟩
  obtain ⟨-, rfl⟩ := one.unique two
  exact ⟨(List.append_cancel_right shape).symm, rfl⟩

/-- The links of a chain have names that fit, link by link. -/
theorem placed_of_chain {children others : List Restriction} {tokens links : List Token}
    (only : compiler.DerivesOnlyPlaced depth) (nested : place.isNested = true)
    (expresses : ∀ child ∈ children, compiler.Expresses depth type place child)
    (quiet : place.Quiet tokens) (written : ∀ token ∈ closing :: rest, token.kind.isWritten = true)
    (same : tokens.map Token.lexeme = Restriction.linkLexemes connective place children)
    (closes : last.kind = .closing)
    (chain : ChainPhrase (compiler.Derives depth) other links others)
    (shape : tokens ++ closing :: rest = links ++ last :: left) :
    ∀ child ∈ children, child.Placed place := by
  induction children generalizing tokens links others with
  | nil => simp
  | cons child children ih =>
    obtain ⟨joint, more, rfl, is, after⟩ := List.map_eq_cons_iff.mp same
    obtain ⟨own, later, rfl, first, remaining⟩ := List.map_eq_append_iff.mp after
    obtain ⟨word, -⟩ := Token.lexeme_eq is
    have balanced := (Restriction.enclosed place child).balanced first
    obtain ⟨quietFirst, quietLater⟩ := (quiet.tail word).append balanced
    have writtenLater : ∀ token ∈ later ++ closing :: rest, token.kind.isWritten = true := by
      intro token member
      rcases List.mem_append.mp member with inside | outside
      · exact (Restriction.enclosed_links connective place children).written remaining token inside
      · exact written token outside
    cases chain with
    | nil =>
      obtain ⟨rfl, -⟩ := List.cons.inj shape
      cases word.symm.trans closes
    | @cons _ phrase tokens found founds _ derived chain =>
      obtain ⟨-, shape⟩ := List.cons.inj shape
      have here : own ++ (later ++ closing :: rest) = phrase ++ (tokens ++ last :: left) := by
        simpa using shape
      have placed := only type place child own _ phrase _ found nested (expresses child (.head _)) quietFirst
        writtenLater first here derived
      obtain ⟨-, next⟩ := phrase_of_placed nested (expresses child (.head _)) placed writtenLater first here
        derived
      have others := ih (fun other member => expresses other (.tail _ member)) quietLater remaining chain
        next.symm
      intro other member
      rcases List.mem_cons.mp member with rfl | inside
      · exact placed
      · exact others other inside

/-- What stands in the brackets of a junction has names that fit. -/
theorem placed_of_junction {first second : Restriction} {others : List Restriction}
    {tokens : List Token} (only : compiler.DerivesOnlyPlaced depth) (nested : place.isNested = true)
    (expresses : compiler.Expresses depth type place first)
    (expressesLinks : ∀ child ∈ second :: others, compiler.Expresses depth type place.next child)
    (quiet : place.Quiet tokens) (written : ∀ token ∈ closing :: rest, token.kind.isWritten = true)
    (same : tokens.map Token.lexeme = first.lexemes place ++
      Restriction.linkLexemes connective place.next (second :: others))
    (opens : opening.kind = .opening)
    (shape : opening :: (tokens ++ closing :: rest) = phrase ++ left)
    (derived : compiler.Derives (depth + 1) phrase found) :
    Restriction.HoldsAll Criteria.PlacedFrame Restriction.PlacedLeaf place (first :: second :: others) := by
  obtain ⟨own, links, rfl, start, linked⟩ := List.map_eq_append_iff.mp same
  have balanced := (Restriction.enclosed place first).balanced start
  obtain ⟨quietFirst, quietLinks⟩ := quiet.append balanced
  have writtenLinks : ∀ token ∈ links ++ closing :: rest, token.kind.isWritten = true := by
    intro token member
    rcases List.mem_append.mp member with inside | outside
    · exact (Restriction.enclosed_links connective place.next _).written linked token inside
    · exact written token outside
  rcases Phrase.of_opening derived shape opens with
    ⟨inner, last, split, derived, closes⟩ | ⟨inner, _, _, chain, _, _, last, closes, split, derived, more⟩
  · have here : own ++ (links ++ closing :: rest) = inner ++ last :: left := by simpa using split
    have placed := only type place first own _ inner _ _ nested expresses quietFirst writtenLinks start
      here derived
    obtain ⟨-, next⟩ := phrase_of_placed nested expresses placed writtenLinks start here derived
    -- There is a second restriction, so the brackets do not end here.
    obtain ⟨joint, _, rfl, is, -⟩ := List.map_eq_cons_iff.mp linked
    obtain ⟨rfl, -⟩ := List.cons.inj next
    cases (Token.lexeme_eq is).1.symm.trans closes
  · have here : own ++ (links ++ closing :: rest) = inner ++ (chain ++ last :: left) := by
      simpa using split
    have placed := only type place first own _ inner _ _ nested expresses quietFirst writtenLinks start
      here derived
    obtain ⟨-, next⟩ := phrase_of_placed nested expresses placed writtenLinks start here derived
    have later := placed_of_chain only place.isNested_next expressesLinks quietLinks.next written linked
      closes more next.symm
    exact ⟨placed, Restriction.holdsAll_next_iff.mpr later⟩

theorem derivesOnlyPlaced_succ (only : compiler.DerivesOnlyPlaced depth)
    (queries : ∀ less, depth = less + 1 → compiler.CompilesOnlyPlaced less) :
    compiler.DerivesOnlyPlaced (depth + 1) := by
  intro type place restriction own rest phrase left found nested expresses quiet written same shape derived
  have fits : ∀ {path : Text} {lexemes : List Lexeme},
      own.map Token.lexeme = path.lexemes place.isFresh ++ lexemes → path.Fits place := by
    intro path lexemes same
    obtain ⟨start, more, rfl, start, -⟩ := List.map_eq_append_iff.mp same
    rw [List.append_assoc] at shape
    exact fits_of_phrase_lexemes start quiet derived shape
  cases restriction with
  | missing => exact expresses.admitted.elim
  | comparison comparator path value =>
    rintro _ ⟨⟩
    exact fits same
  | isNull path =>
    rintro _ ⟨⟩
    exact fits same
  | inValues path values =>
    rintro _ ⟨⟩
    exact fits same
  | inQuery path query =>
    obtain ⟨less, rfl, expressesQuery⟩ := expresses.subquery
    have fit : path.Fits place := fits same
    obtain ⟨property, operator, opening, inner, closing, rfl, rfl, isPath, tests, -, inside, closes⟩ :=
      membership_of_lexemes expresses.spelled.1 fit same
    have balanced := query.enclosed.balanced inside
    obtain ⟨select, listed, from_, name, clauses, rfl, selects, -⟩ := parts_of_lexemes inside
    have brackets : property :: operator :: opening ::
        (select :: (listed ++ from_ :: (name ++ clauses)) ++ closing :: rest) = phrase ++ left := by
      simpa using shape
    obtain ⟨other, compiled⟩ := Phrase.of_subquery derived brackets isPath tests selects closes balanced
      fun _ _ _ => balanced_of_subquery
    have placed := queries less rfl query closing _ other closes expressesQuery inside compiled
    refine ⟨?_, placed⟩
    rintro _ ⟨⟩
    exact fit
  | junction connective children =>
    obtain ⟨first, second, others, rfl, expressesFirst, expressesLinks⟩ := expresses.children
    rw [Restriction.lexemes, Place.bracket, if_pos nested] at same
    obtain ⟨opening, more, rfl, opens, inside⟩ := List.map_eq_cons_iff.mp same
    obtain ⟨tokens, last, rfl, chain, closed⟩ := List.map_eq_append_iff.mp inside
    obtain ⟨closing, rfl, closes⟩ := List.map_eq_singleton_iff.mp closed
    have covered : place.first.Quiet tokens := by
      intro exposed
      cases place with
      | clause => cases nested
      | chain | opening | inside => cases exposed
    have writtenLast : ∀ token ∈ closing :: rest, token.kind.isWritten = true := by
      intro token member
      rcases List.mem_cons.mp member with rfl | later
      · rw [(Token.lexeme_eq closes).1]
        rfl
      · exact written token later
    have brackets : opening :: (tokens ++ closing :: rest) = phrase ++ left := by simpa using shape
    exact placed_of_junction only place.isNested_first expressesFirst expressesLinks covered writtenLast
      chain (Token.lexeme_eq opens).1 brackets derived
  | not child =>
    obtain ⟨token, inner, rfl, is, own⟩ := List.map_eq_cons_iff.mp same
    have negates : token.Spells .not := spells_of_lexeme is rfl
    obtain ⟨word, -⟩ := Token.lexeme_eq is
    rcases Phrase.first derived shape with opens | ⟨-, phrase, other, split, derived⟩ | isPath
    · cases word.symm.trans opens
    · exact only type _ child inner rest phrase left other place.isNested_next expresses.child
        (quiet.tail word).next written own split derived
    · cases negates.2.symm.trans isPath.2

end Compiler
end RecordQuery
