import RecordQuery.Proofs.Criteria.Accepted
import RecordQuery.Proofs.Grammar.Query
import RecordQuery.Proofs.Print.Spelling

namespace RecordQuery

open Query

/-- At this place the name is not torn apart and does not open a clause. -/
structure Text.Fits (place : Place) (path : Text) : Prop where
  whole : place.isFresh = false → path.isSigned = false
  closed : place.isExposed = true → path.opensClause = false

def Restriction.PlacedLeaf (place : Place) (leaf : Restriction) : Prop :=
  ∀ path ∈ leaf.property?, path.Fits place

/-- The names of a query, its restriction apart, are read as names. -/
structure Criteria.PlacedFrame (criteria : Criteria) : Prop where
  type : criteria.type.name.isSigned = false
  first : ∀ path ∈ criteria.properties.head?, path.isSigned = false
  columns : ∀ path ∈ criteria.properties, path.sameFold "FROM" = false
  /-- A last word that could open a clause is missed its `BY`. -/
  last : criteria.orderBy = [] → criteria.limit = none → criteria.offset = none →
    ∀ key ∈ criteria.groupBy.getLast?, key.sameFold "GROUP" = false ∧ key.sameFold "ORDER" = false

def Restriction.Placed (restriction : Restriction) (place : Place) : Prop :=
  restriction.Holds Criteria.PlacedFrame Restriction.PlacedLeaf place

def Criteria.Placed (criteria : Criteria) : Prop :=
  criteria.Holds Criteria.PlacedFrame Restriction.PlacedLeaf

namespace Compiler

variable {compiler : Compiler} {depth : Nat} {type : RecordType} {place : Place}

/-- The restriction makes sense, can be spelled, and needs no more levels. -/
structure Expresses (compiler : Compiler) (depth : Nat) (type : RecordType) (place : Place)
    (restriction : Restriction) : Prop where
  admitted : compiler.schema.Admits compiler.packages type restriction
  spelled : restriction.Spelled place
  levels : restriction.levels ≤ depth

/-- The query makes sense, can be spelled, and needs no more levels. -/
structure ExpressesQuery (compiler : Compiler) (depth : Nat) (isSubquery : Bool)
    (query : Criteria) : Prop where
  accepted : compiler.schema.Accepts compiler.packages query
  flag : query.isSubquery = isSubquery
  spelled : query.Spelled
  levels : query.levels ≤ depth

theorem Expresses.child {child : Restriction}
    (expresses : compiler.Expresses (depth + 1) type place (.not child)) :
    compiler.Expresses depth type place.next child :=
  ⟨expresses.admitted, expresses.spelled, Nat.le_of_succ_le_succ expresses.levels⟩

theorem Expresses.children {children : List Restriction}
    (expresses : compiler.Expresses (depth + 1) type place (.junction connective children)) :
    ∃ first second others, children = first :: second :: others ∧
      compiler.Expresses depth type place.first first ∧
      ∀ child ∈ second :: others, compiler.Expresses depth type place.first.next child := by
  obtain ⟨⟨many, admitted⟩, spelled, levels⟩ := expresses
  have fits := Restriction.levelsAll_le_iff.mp (Nat.le_of_succ_le_succ levels)
  rw [Schema.admitsAll_iff] at admitted
  match children, many with
  | first :: second :: others, _ =>
    refine ⟨first, second, others, rfl, ?_, ?_⟩
    · exact ⟨admitted _ (.head _), spelled.1, fits _ (.head _)⟩
    · intro child member
      exact ⟨admitted _ (.tail _ member), Restriction.holdsAll_next_iff.mp spelled.2 child member,
        fits _ (.tail _ member)⟩

theorem Expresses.subquery {query : Criteria}
    (expresses : compiler.Expresses (depth + 1) type place (.inQuery path query)) :
    ∃ less, depth = less + 1 ∧ compiler.ExpressesQuery less true query := by
  obtain ⟨⟨_, flag, accepted⟩, spelled, levels⟩ := expresses
  rw [Restriction.levels] at levels
  exact ⟨depth - 1, by omega, accepted, flag, spelled.2, by omega⟩

end Compiler

/-- A name that fits is a token of its own. -/
theorem Text.Fits.lexemes {path : Text} (fits : path.Fits place) :
    path.lexemes place.isFresh = [Lexeme.word path] := by
  rw [Text.lexemes, if_neg]
  rintro ⟨signed, stale⟩
  rw [fits.whole stale] at signed
  cases signed

theorem Token.lexeme_eq {token : Token} {kind : TokenKind} {text : Text}
    (same : token.lexeme = (kind, text)) :
    token.kind = kind ∧ token.text = text :=
  Prod.mk.inj same

/-- The token of a path where it fits. -/
theorem isPath_of_lexemes {path : Text} {tokens : List Token} (spelled : path.isPath = true)
    (fits : path.Fits place) (same : tokens.map Token.lexeme = path.lexemes place.isFresh) :
    ∃ token, tokens = [token] ∧ token.text = path ∧ token.IsPath := by
  rw [fits.lexemes] at same
  obtain ⟨token, rfl, is⟩ := List.map_eq_singleton_iff.mp same
  obtain ⟨kind, rfl⟩ := Token.lexeme_eq is
  simp only [Text.isPath, Bool.and_eq_true, Option.isNone_iff_eq_none] at spelled
  exact ⟨token, rfl, rfl, kind, spelled.2⟩

theorem spells_of_lexeme {token : Token} {operator : Operator}
    (is : token.lexeme = Lexeme.word operator.symbol) (plain : operator.isComparison = false) :
    token.Spells operator := by
  obtain ⟨kind, text⟩ := Token.lexeme_eq is
  refine ⟨.inl kind, ?_⟩
  rw [text]
  cases operator with
  | compare comparator => cases plain
  | connect connective => cases connective <;> decide
  | _ => decide

theorem compares_of_lexeme {token : Token} {comparator : Comparator}
    (is : token.lexeme = comparator.lexeme) : token.Spells (.compare comparator) := by
  obtain ⟨kind, text⟩ := Token.lexeme_eq is
  refine ⟨?_, ?_⟩
  · rw [kind]
    cases comparator <;> simp [Comparator.isPattern]
  · rw [text]
    cases comparator <;> decide

theorem operand_of_lexeme {token : Token} {value : Value} (quotable : value.IsQuotable)
    (is : token.lexeme = (.string, value.literal)) :
    token.kind = .string ∧ .text token.value = value := by
  cases value with
  | text t =>
    rw [Text.literal_text] at is
    exact ⟨(Token.lexeme_eq is).1, by rw [Token.value_quotedLiteral is]⟩
  | _ => exact quotable.elim

/-- A list is read if, where a value may begin, each of its pieces is a single token that stands for one. -/
theorem listPhrase_of_pieces {piece : α → Piece} {value : α → Value} {things : List α} {tokens : List Token}
    (each : ∀ thing ∈ things, ∃ lexeme, piece thing true = [lexeme] ∧ ∀ token : Token,
      token.lexeme = lexeme → token.IsListValue ∧ .text token.value = value thing)
    (filled : things ≠ []) (same : tokens.map Token.lexeme = separated true (things.map piece)) :
    ListPhrase tokens (things.map value) := by
  induction things generalizing tokens with
  | nil => exact absurd rfl filled
  | cons thing things ih =>
    obtain ⟨lexeme, single, reads⟩ := each thing (.head _)
    cases things with
    | nil =>
      rw [List.map_singleton, separated, single] at same
      obtain ⟨token, rfl, is⟩ := List.map_eq_singleton_iff.mp same
      obtain ⟨listed, meant⟩ := reads token is
      rw [List.map_singleton, ← meant]
      exact .one listed
    | cons next things =>
      rw [List.map_cons, List.map_cons, separated, single, List.singleton_append] at same
      obtain ⟨token, more, rfl, is, after⟩ := List.map_eq_cons_iff.mp same
      obtain ⟨comma, later, rfl, separator, rest⟩ := List.map_eq_cons_iff.mp after
      obtain ⟨listed, meant⟩ := reads token is
      rw [List.map_cons, ← meant]
      exact .cons listed (Token.lexeme_eq separator).1
        (ih (fun other member => each other (.tail _ member)) (by simp) rest)

/-- The values of a list are read back. -/
theorem listPhrase_of_lexemes {values : List Value} {tokens : List Token}
    (quotable : ∀ value ∈ values, value.IsQuotable) (filled : values ≠ [])
    (same : tokens.map Token.lexeme = separated true (values.map Value.piece)) :
    ListPhrase tokens values := by
  have listed : ListPhrase tokens (values.map fun value => value) := by
    refine listPhrase_of_pieces ?_ filled same
    intro value member
    refine ⟨(.string, value.literal), rfl, fun token is => ?_⟩
    obtain ⟨kind, meant⟩ := operand_of_lexeme (quotable value member) is
    exact ⟨.inr kind, meant⟩
  rwa [List.map_id'] at listed

theorem kind_of_values {values : List Value} {tokens : List Token}
    (same : tokens.map Token.lexeme = separated fresh (values.map Value.piece))
    (member : token ∈ tokens) : token.kind = .string ∨ token.kind = .comma := by
  have inside : token.lexeme ∈ separated fresh (values.map Value.piece) :=
    same ▸ List.mem_map_of_mem member
  rcases mem_separated inside with comma | ⟨piece, among, _, own⟩
  · exact .inr (Token.lexeme_eq comma).1
  · obtain ⟨value, -, rfl⟩ := List.mem_map.mp among
    exact .inl (Token.lexeme_eq (List.mem_singleton.mp own)).1

/-- The tokens of a path and of what stands in the brackets after `IN`. -/
theorem membership_of_lexemes {path : Text} {tokens : List Token} {inner : List Lexeme}
    (spelled : path.isPath = true) (fits : path.Fits place)
    (same : tokens.map Token.lexeme = path.lexemes place.isFresh ++
      Lexeme.word "IN" :: Lexeme.opening :: (inner ++ [Lexeme.closing])) :
    ∃ property operator opening own closing,
      tokens = property :: operator :: opening :: (own ++ [closing]) ∧ property.text = path ∧
        property.IsPath ∧ operator.Spells .isIn ∧ opening.kind = .opening ∧
        own.map Token.lexeme = inner ∧ closing.kind = .closing := by
  obtain ⟨start, more, rfl, own, after⟩ := List.map_eq_append_iff.mp same
  obtain ⟨property, rfl, text, isPath⟩ := isPath_of_lexemes spelled fits own
  obtain ⟨operator, brackets, rfl, is, inside⟩ := List.map_eq_cons_iff.mp after
  obtain ⟨opening, listed, rfl, opens, list⟩ := List.map_eq_cons_iff.mp inside
  obtain ⟨inner, last, rfl, values, closed⟩ := List.map_eq_append_iff.mp list
  obtain ⟨closing, rfl, closes⟩ := List.map_eq_singleton_iff.mp closed
  have tests : operator.Spells .isIn := spells_of_lexeme is rfl
  exact ⟨property, operator, opening, inner, closing, rfl, text, isPath, tests,
    (Token.lexeme_eq opens).1, values, (Token.lexeme_eq closes).1⟩

/-- The tokens of a query: a select list, the name of its type, and its clauses. -/
theorem parts_of_lexemes {query : Criteria} {tokens : List Token}
    (same : tokens.map Token.lexeme = query.lexemes) :
    ∃ select listed from_ name clauses,
      tokens = select :: (listed ++ from_ :: (name ++ clauses)) ∧ select.isKeyword "SELECT" = true ∧
        listed.map Token.lexeme =
          separated false (query.properties.map Text.lexemes ++ query.aggregates.map AggregateCall.piece) ∧
        from_.isKeyword "FROM" = true ∧ name.map Token.lexeme = query.type.name.lexemes false ∧
        clauses.map Token.lexeme = tailLexemes query.own Clause.all := by
  rw [query.lexemes_eq, headLexemes, List.cons_append, List.append_assoc, List.cons_append] at same
  obtain ⟨select, rest, rfl, selects, after⟩ := List.map_eq_cons_iff.mp same
  obtain ⟨listed, more, rfl, list, tail⟩ := List.map_eq_append_iff.mp after
  obtain ⟨from_, typed, rfl, separates, last⟩ := List.map_eq_cons_iff.mp tail
  obtain ⟨name, clauses, rfl, names, clause⟩ := List.map_eq_append_iff.mp last
  have keyword : ∀ {token : Token} {w : Text}, token.lexeme = Lexeme.word w → w.sameFold w = true →
      token.isKeyword w = true := by
    intro token w is same
    obtain ⟨kind, text⟩ := Token.lexeme_eq is
    simp [Token.isKeyword, kind, text, same]
  exact ⟨select, listed, from_, name, clauses, rfl, keyword selects (by decide), list,
    keyword separates (by decide), names, clause⟩

namespace Compiler

/-- Nested restrictions are derived from their tokens. -/
def DerivesWritten (compiler : Compiler) (depth : Nat) : Prop :=
  ∀ type place restriction tokens, place.isNested = true →
    compiler.Expresses depth type place restriction → restriction.Placed place →
    tokens.map Token.lexeme = restriction.lexemes place → compiler.Derives depth tokens restriction

/-- Subqueries are compiled from their tokens. -/
def CompilesWritten (compiler : Compiler) (depth : Nat) : Prop :=
  ∀ query closing tokens, closing.kind = .closing →
    compiler.ExpressesQuery depth true query → query.Placed →
    tokens.map Token.lexeme = query.lexemes → compiler.subquery (depth + 1) closing tokens = .ok query

/-- The links of a chain are derived from their tokens. -/
theorem chainPhrase_of_lexemes {compiler : Compiler} {children : List Restriction}
    (derives : compiler.DerivesWritten depth) (nested : place.isNested = true)
    (expresses : ∀ child ∈ children, compiler.Expresses depth type place child)
    (placed : ∀ child ∈ children, child.Placed place)
    (same : tokens.map Token.lexeme = Restriction.linkLexemes connective place children) :
    ChainPhrase (compiler.Derives depth) connective tokens children := by
  induction children generalizing tokens with
  | nil =>
    obtain rfl := List.map_eq_nil_iff.mp same
    exact .nil
  | cons child children ih =>
    obtain ⟨token, more, rfl, is, after⟩ := List.map_eq_cons_iff.mp same
    obtain ⟨phrase, links, rfl, own, later⟩ := List.map_eq_append_iff.mp after
    have joint : token.Spells (.connect connective) := spells_of_lexeme is rfl
    exact .cons joint
      (derives type place child phrase nested (expresses child (.head _)) (placed child (.head _)) own)
      (ih (fun other member => expresses other (.tail _ member))
        (fun other member => placed other (.tail _ member)) later)

/-- What stands in the brackets of a junction is derived from its tokens. -/
theorem junctionPhrase_of_lexemes {compiler : Compiler} {first second : Restriction}
    {others : List Restriction} {subquery : SubqueryReader}
    (derives : compiler.DerivesWritten depth) (nested : place.isNested = true)
    (expresses : compiler.Expresses depth type place first)
    (expressesLinks : ∀ child ∈ second :: others, compiler.Expresses depth type place.next child)
    (placed : Restriction.HoldsAll Criteria.PlacedFrame Restriction.PlacedLeaf place
      (first :: second :: others))
    (opens : opening.kind = .opening) (closes : closing.kind = .closing)
    (same : tokens.map Token.lexeme = first.lexemes place ++
      Restriction.linkLexemes connective place.next (second :: others)) :
    Phrase (compiler.Derives depth) subquery (opening :: (tokens ++ [closing]))
      (.junction connective (first :: second :: others)) := by
  obtain ⟨phrase, links, rfl, own, later⟩ := List.map_eq_append_iff.mp same
  have inner := derives type place first phrase nested expresses placed.1 own
  have chain := chainPhrase_of_lexemes derives place.isNested_next expressesLinks
    (Restriction.holdsAll_next_iff.mp placed.2) later
  rw [List.append_assoc]
  exact .junction opens inner chain closes

theorem derivesWritten_succ {compiler : Compiler} (derives : compiler.DerivesWritten depth)
    (compiles : ∀ less, depth = less + 1 → compiler.CompilesWritten less) :
    compiler.DerivesWritten (depth + 1) := by
  intro type place restriction tokens nested expresses placed same
  change Phrase (compiler.Derives depth) (compiler.subquery depth) tokens restriction
  cases restriction with
  | missing => exact expresses.admitted.elim
  | comparison comparator path value =>
    obtain ⟨path', quotable⟩ := expresses.spelled
    obtain ⟨start, more, rfl, own, after⟩ := List.map_eq_append_iff.mp same
    obtain ⟨property, rfl, rfl, isPath⟩ := isPath_of_lexemes path' (placed _ rfl) own
    obtain ⟨operator, last, rfl, is, rest⟩ := List.map_eq_cons_iff.mp after
    obtain ⟨operand, rfl, literal⟩ := List.map_eq_singleton_iff.mp rest
    obtain ⟨kind, rfl⟩ := operand_of_lexeme quotable literal
    exact .comparison isPath (compares_of_lexeme is) (.inl kind)
  | isNull path =>
    obtain ⟨start, more, rfl, own, after⟩ := List.map_eq_append_iff.mp same
    obtain ⟨property, rfl, rfl, isPath⟩ := isPath_of_lexemes expresses.spelled (placed _ rfl) own
    obtain ⟨operator, rfl, is⟩ := List.map_eq_singleton_iff.mp after
    exact .isNull isPath (spells_of_lexeme is rfl)
  | inValues path values =>
    obtain ⟨spelled, quotable⟩ := expresses.spelled
    obtain ⟨property, operator, opening, own, closing, rfl, rfl, isPath, tests, opens, list, closes⟩ :=
      membership_of_lexemes spelled (placed _ rfl) same
    have listed := listPhrase_of_lexemes quotable expresses.admitted.2 list
    cases own with
    | nil => cases listed
    | cons first rest =>
      have plain : first.isKeyword "SELECT" = false := by
        apply Token.not_isKeyword_of_kind
        rcases kind_of_values list (.head _) with kind | kind <;> simp [kind]
      exact .inValues isPath tests opens plain listed closes
  | inQuery path query =>
    obtain ⟨less, rfl, expressesQuery⟩ := expresses.subquery
    obtain ⟨property, operator, opening, own, closing, rfl, rfl, isPath, tests, opens, inner, closes⟩ :=
      membership_of_lexemes expresses.spelled.1 (placed.1 _ rfl) same
    obtain ⟨select, _, _, _, _, rfl, selects, -⟩ := parts_of_lexemes inner
    have compiled := compiles less rfl query closing _ closes expressesQuery placed.2 inner
    exact .inQuery isPath tests opens selects compiled closes
  | junction connective children =>
    obtain ⟨first, second, others, rfl, expressesFirst, expressesLinks⟩ := expresses.children
    rw [Restriction.lexemes, Place.bracket, if_pos nested] at same
    obtain ⟨opening, more, rfl, opens, inside⟩ := List.map_eq_cons_iff.mp same
    obtain ⟨own, last, rfl, chain, closed⟩ := List.map_eq_append_iff.mp inside
    obtain ⟨closing, rfl, closes⟩ := List.map_eq_singleton_iff.mp closed
    exact junctionPhrase_of_lexemes derives place.isNested_first expressesFirst expressesLinks placed
      (Token.lexeme_eq opens).1 (Token.lexeme_eq closes).1 chain
  | not child =>
    obtain ⟨token, phrase, rfl, is, own⟩ := List.map_eq_cons_iff.mp same
    exact .not (spells_of_lexeme is rfl)
      (derives type _ child phrase place.isNested_next expresses.child placed own)

end Compiler
end RecordQuery
