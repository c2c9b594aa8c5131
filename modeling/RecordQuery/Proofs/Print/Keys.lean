import RecordQuery.Proofs.Grammar.Keys
import RecordQuery.Proofs.Print.Clauses

namespace RecordQuery

open Query

theorem loneClause?_of_lexeme {token : Token} {w : Text} (is : token.lexeme = Lexeme.word w) :
    loneClause? token = none ↔ w.opensClause = false := by
  simp only [loneClause?, Token.isKeyword_of_lexeme is, Text.opensClause, Bool.or_eq_false_iff]
  by_cases first : w.sameFold "WHERE" = true
  · simp [first]
  · by_cases second : w.sameFold "LIMIT" = true
    · simp [first, second]
    · by_cases third : w.sameFold "OFFSET" = true <;> simp [first, second, third]

theorem byClause?_of_lexeme {token : Token} {w : Text} (is : token.lexeme = Lexeme.word w) :
    byClause? token = none ↔ w.sameFold "GROUP" = false ∧ w.sameFold "ORDER" = false := by
  simp only [byClause?, Token.isKeyword_of_lexeme is]
  by_cases first : w.sameFold "GROUP" = true
  · simp [first]
  · by_cases second : w.sameFold "ORDER" = true <;> simp [first, second]

/-- A key opens no clause unless it does so alone, or is a keyword that lacks its `BY`. -/
theorem windowAt_key {key : Text} (closed : key.opensClause = false)
    (is : token.lexeme = Lexeme.word key)
    (unlike : ∀ next ∈ rest.head?, next.isKeyword "BY" = false)
    (followed : rest = [] → key.sameFold "GROUP" = false ∧ key.sameFold "ORDER" = false) :
    windowAt token rest = .ok none := by
  have alone := (loneClause?_of_lexeme is).mpr closed
  cases rest with
  | nil =>
    have paired := (byClause?_of_lexeme is).mpr (followed rfl)
    simp [windowAt, alone, paired]
  | cons next rest =>
    have other := unlike next rfl
    cases paired : byClause? token <;> simp [windowAt, alone, paired, other]

/-- A key never opens a clause with what follows it in a query. -/
theorem guarded_key {key : Text} (closed : key.opensClause = false)
    (is : token.lexeme = Lexeme.word key)
    (unlike : ∀ next ∈ rest.head?, next.isKeyword "BY" = false) : Guarded token rest := by
  intro opened opens
  cases rest with
  | nil =>
    have alone := (loneClause?_of_lexeme is).mpr closed
    cases paired : byClause? token <;> simp [windowAt, alone, paired] at opens
  | cons next rest =>
    rw [windowAt_key closed is unlike (by simp)] at opens
    cases opens

theorem opensClause_of_quiet {w : Text} (is : token.lexeme = Lexeme.word w)
    (quiet : windowAt token rest = .ok none) : w.opensClause = false := by
  rw [← loneClause?_of_lexeme is]
  cases lone : loneClause? token with
  | none => rfl
  | some clause => simp [windowAt, lone] at quiet

/-- A last word that opens no clause is none of the keywords that need `BY`. -/
theorem unpaired_of_quiet {w : Text} (is : token.lexeme = Lexeme.word w)
    (quiet : windowAt token [] = .ok none) :
    w.sameFold "GROUP" = false ∧ w.sameFold "ORDER" = false := by
  rw [← byClause?_of_lexeme is]
  have alone := (loneClause?_of_lexeme is).mpr (opensClause_of_quiet is quiet)
  cases paired : byClause? token with
  | none => rfl
  | some clause => simp [windowAt, alone, paired] at quiet

theorem tolerates_of_quiet {allowed : Token → List Token → Prop}
    (quiet : ∀ token rest, windowAt token rest = .ok none → allowed token rest) :
    Tolerates allowed :=
  ⟨fun token rest other => quiet token rest (windowAt_of_kind other rest),
    fun token rest symbol => quiet token rest (windowAt_symbol symbol rest)⟩

/-- What follows a clause is not `BY`. -/
theorem tail_unlike_by {own : Clause → Option (List Lexeme)} {after : List Token}
    (same : after.map Token.lexeme = tailLexemes own order) :
    ∀ next ∈ after.head?, next.isKeyword "BY" = false := by
  induction order with
  | nil =>
    obtain rfl := List.map_eq_nil_iff.mp same
    simp
  | cons clause order ih =>
    cases given : own clause with
    | none =>
      rw [tailLexemes_none given] at same
      exact ih same
    | some lexemes =>
      rw [tailLexemes_some given] at same
      intro next first
      cases clause
      all_goals
        obtain ⟨token, _, rfl, is, -⟩ := List.map_eq_cons_iff.mp same
        cases first
        rw [Token.isKeyword_of_lexeme is]
        decide

theorem surface_comma {allowed : Token → List Token → Prop} (tolerates : Tolerates allowed)
    (is : comma.lexeme = Lexeme.comma) (later : Surface allowed after 0 tokens) :
    Surface allowed after 0 (comma :: tokens) := by
  obtain ⟨kind, -⟩ := Prod.mk.inj is
  exact surface_mark tolerates (by simp [kind]) (by simp [kind]) (by simp [openAfter, kind]) later

/-- Grouping keys open no clause if the last one does not. -/
theorem surface_groupKeys {allowed : Token → List Token → Prop} {keys : List Text}
    {tokens : List Token}
    (quiet : ∀ token rest, windowAt token rest = .ok none → allowed token rest)
    (closed : ∀ key ∈ keys, key.opensClause = false)
    (last : ∀ key ∈ keys.getLast?, ∀ token : Token, token.lexeme = Lexeme.word key →
      allowed token after)
    (same : tokens.map Token.lexeme = separated true (keys.map Text.lexemes)) :
    Surface allowed after 0 tokens := by
  induction keys generalizing tokens with
  | nil =>
    obtain rfl := List.map_eq_nil_iff.mp same
    rfl
  | cons key keys ih =>
    cases keys with
    | nil =>
      rw [List.map_cons, List.map_nil, separated, key.lexemes_true] at same
      obtain ⟨token, rfl, is⟩ := List.map_eq_singleton_iff.mp same
      exact surface_word (Prod.mk.inj is).1 (last key rfl token is) rfl
    | cons next keys =>
      rw [List.map_cons, List.map_cons, separated, key.lexemes_true] at same
      obtain ⟨token, more, rfl, is, rest⟩ := List.map_eq_cons_iff.mp same
      obtain ⟨comma, later, rfl, separator, listed⟩ := List.map_eq_cons_iff.mp rest
      have other : comma.isKeyword "BY" = false :=
        Token.not_isKeyword_of_kind (by simp [(Prod.mk.inj separator).1])
      have here : windowAt token (comma :: later ++ after) = .ok none :=
        windowAt_key (closed key (.head _)) is (by simp [other]) (by simp)
      have inner := ih (fun other member => closed other (.tail _ member))
        (by simpa using last) listed
      exact surface_word (Prod.mk.inj is).1 (quiet _ _ here)
        (surface_comma (tolerates_of_quiet quiet) separator inner)

theorem surface_quiet {allowed : Token → List Token → Prop} {w : Text}
    (quiet : ∀ token rest, windowAt token rest = .ok none → allowed token rest)
    (is : token.lexeme = Lexeme.word w) (silent : w.isQuiet = true)
    (later : Surface allowed after 0 tokens) : Surface allowed after 0 (token :: tokens) := by
  obtain ⟨kind, rfl⟩ := Prod.mk.inj is
  exact surface_word kind (quiet _ _ (windowAt_of_isQuiet silent _)) later

/-- Sort keys have their directions after them, and open no clause. -/
theorem surface_sortKeys {allowed : Token → List Token → Prop} {keys : List SortKey}
    {tokens : List Token}
    (quiet : ∀ token rest, windowAt token rest = .ok none → allowed token rest)
    (closed : ∀ key ∈ keys, key.property.opensClause = false)
    (same : tokens.map Token.lexeme = separated true (keys.map SortKey.piece)) :
    Surface allowed after 0 tokens := by
  have entry : ∀ (key : SortKey) token direction rest, key.property.opensClause = false →
      token.lexeme = Lexeme.word key.property → direction.lexeme = Lexeme.word key.direction.name →
      Surface allowed after 0 rest → Surface allowed after 0 (token :: direction :: rest) := by
    intro key token direction rest closed is directs later
    have unlike : direction.isKeyword "BY" = false := by
      rw [Token.isKeyword_of_lexeme directs]
      exact Text.sameFold_of_isQuiet key.direction.isQuiet_name (by decide)
    have here : windowAt token (direction :: rest ++ after) = .ok none :=
      windowAt_key closed is (by simp [unlike]) (by simp)
    exact surface_word (Prod.mk.inj is).1 (quiet _ _ here)
      (surface_quiet quiet directs key.direction.isQuiet_name later)
  induction keys generalizing tokens with
  | nil =>
    obtain rfl := List.map_eq_nil_iff.mp same
    rfl
  | cons key keys ih =>
    have first := closed key (.head _)
    cases keys with
    | nil =>
      rw [List.map_cons, List.map_nil, separated, SortKey.piece, Text.lexemes_true] at same
      obtain ⟨token, more, rfl, is, rest⟩ := List.map_eq_cons_iff.mp same
      obtain ⟨direction, rfl, directs⟩ := List.map_eq_singleton_iff.mp rest
      exact entry key token direction [] first is directs rfl
    | cons next keys =>
      rw [List.map_cons, List.map_cons, separated, SortKey.piece, Text.lexemes_true] at same
      obtain ⟨token, more, rfl, is, rest⟩ := List.map_eq_cons_iff.mp same
      obtain ⟨direction, others, rfl, directs, list⟩ := List.map_eq_cons_iff.mp rest
      obtain ⟨comma, later, rfl, separator, listed⟩ := List.map_eq_cons_iff.mp list
      have inner := ih (fun other member => closed other (.tail _ member)) listed
      exact entry key token direction _ first is directs
        (surface_comma (tolerates_of_quiet quiet) separator inner)

theorem SpelledKeys.groupLexemes {keys : List Text} (spelled : SpelledKeys keys) :
    separated false (keys.map Text.lexemes) = separated true (keys.map Text.lexemes) := by
  apply separated_fresh
  intro piece first
  rw [List.head?_map] at first
  obtain ⟨key, head, rfl⟩ := Option.map_eq_some_iff.mp first
  rw [Text.lexemes_of_unsigned (spelled.unsigned key head), Text.lexemes_true]

theorem SpelledKeys.sortLexemes {keys : List SortKey} (spelled : SpelledKeys (keys.map (·.property))) :
    separated false (keys.map SortKey.piece) = separated true (keys.map SortKey.piece) := by
  apply separated_fresh
  intro piece first
  rw [List.head?_map] at first
  obtain ⟨key, head, rfl⟩ := Option.map_eq_some_iff.mp first
  have unsigned := spelled.unsigned key.property (by simp [head])
  simp only [SortKey.piece, Text.lexemes_of_unsigned unsigned]

theorem Clause.after_groupBy (split : Clause.all = before ++ .groupBy :: later) :
    later = [.orderBy, .limit, .offset] := by
  match before with
  | [] => simp [Clause.all] at split
  | [_] =>
    obtain ⟨-, split⟩ := List.cons.inj split
    exact (List.cons.inj split).2.symm
  | _ :: _ :: before =>
    obtain ⟨-, split⟩ := List.cons.inj split
    obtain ⟨-, split⟩ := List.cons.inj split
    have member : Clause.groupBy ∈ [Clause.orderBy, .limit, .offset] := by
      rw [split]
      simp
    exact absurd member (by decide)

section Clauses

variable {criteria : Criteria} {lexemes : List Lexeme}

theorem Criteria.own_groupBy (spelled : SpelledKeys criteria.groupBy)
    (given : criteria.own .groupBy = some lexemes) :
    criteria.groupBy ≠ [] ∧ lexemes = separated true (criteria.groupBy.map Text.lexemes) := by
  simp only [Criteria.own, clauseLexemes, Option.ite_none_left_eq_some, Option.some.injEq] at given
  exact ⟨by simpa using given.1, by rw [← given.2, spelled.groupLexemes]⟩

theorem Criteria.own_orderBy (spelled : SpelledKeys (criteria.orderBy.map (·.property)))
    (given : criteria.own .orderBy = some lexemes) :
    criteria.orderBy ≠ [] ∧ lexemes = separated true (criteria.orderBy.map SortKey.piece) := by
  simp only [Criteria.own, clauseLexemes, Option.ite_none_left_eq_some, Option.some.injEq] at given
  exact ⟨by simpa using given.1, by rw [← given.2, spelled.sortLexemes]⟩

/-- The clauses of a query are closed to others if its restriction and its last grouping key are. -/
theorem Criteria.surface_clauses {allowed : Token → List Token → Prop}
    (quiet : ∀ token rest, windowAt token rest = .ok none → allowed token rest)
    (spelled : criteria.SpelledFrame)
    (restricted : ∀ restriction ∈ criteria.restriction, ∀ tokens after : List Token,
      tokens.map Token.lexeme = restriction.lexemes .clause → Surface allowed after 0 tokens)
    (last : ∀ key ∈ criteria.groupBy.getLast?, ∀ (token : Token) after,
      token.lexeme = Lexeme.word key →
      after.map Token.lexeme = tailLexemes criteria.own [.orderBy, .limit, .offset] →
      allowed token after)
    (before : List Clause) (clause : Clause) (later : List Clause) (tokens after : List Token)
    (split : Clause.all = before ++ clause :: later)
    (given : criteria.own clause = some (tokens.map Token.lexeme))
    (tail : after.map Token.lexeme = tailLexemes criteria.own later) :
    Surface allowed after 0 tokens := by
  have count : ∀ limit : Option Int,
      limit.map (fun count => [Lexeme.word (Text.ofInt count)]) = some (tokens.map Token.lexeme) →
      Surface allowed after 0 tokens := by
    intro limit counted
    obtain ⟨number, -, same⟩ := Option.map_eq_some_iff.mp counted
    obtain ⟨token, rfl, is⟩ := List.map_eq_singleton_iff.mp same.symm
    exact surface_quiet quiet is (Text.isQuiet_ofInt number) rfl
  cases clause with
  | where_ =>
    obtain ⟨restriction, member, same⟩ := Option.map_eq_some_iff.mp given
    exact restricted restriction member tokens after same.symm
  | groupBy =>
    obtain ⟨-, same⟩ := criteria.own_groupBy spelled.groupBy given
    refine surface_groupKeys quiet spelled.groupBy.closed ?_ same
    intro key final token is
    exact last key final token after is (Clause.after_groupBy split ▸ tail)
  | orderBy =>
    obtain ⟨-, same⟩ := criteria.own_orderBy spelled.orderBy given
    refine surface_sortKeys quiet ?_ same
    intro key member
    exact spelled.orderBy.closed _ (List.mem_map_of_mem member)
  | limit => exact count criteria.limit given
  | offset => exact count criteria.offset given

end Clauses

/-- Entries that are read back one by one are read back as a list. -/
theorem listed_of_lexemes {α β : Type} {entry : List Token → α → Prop} {means : α → β → Prop} {piece : β → Piece}
    {things : List β} {tokens : List Token}
    (each : ∀ thing ∈ things, ∀ tokens : List Token, tokens.map Token.lexeme = piece thing true →
      ∃ item, entry tokens item ∧ means item thing)
    (filled : things ≠ []) (same : tokens.map Token.lexeme = separated true (things.map piece)) :
    ∃ items, Listed entry tokens items ∧ List.Forall₂ means items things := by
  induction things generalizing tokens with
  | nil => exact absurd rfl filled
  | cons thing things ih =>
    cases things with
    | nil =>
      obtain ⟨item, first, meant⟩ := each thing (.head _) tokens same
      exact ⟨[item], .one first, .cons meant .nil⟩
    | cons next things =>
      rw [List.map_cons, List.map_cons, separated] at same
      obtain ⟨phrase, rest, rfl, here, later⟩ := List.map_eq_append_iff.mp same
      obtain ⟨comma, rest, rfl, separator, list⟩ := List.map_eq_cons_iff.mp later
      obtain ⟨item, first, meant⟩ := each thing (.head _) phrase here
      obtain ⟨items, more, others⟩ :=
        ih (fun other member => each other (.tail _ member)) (List.cons_ne_nil _ _) list
      exact ⟨item :: items, .cons first (congrArg Prod.fst separator) more, .cons meant others⟩

/-- Grouping keys are read back. -/
theorem groupKeys_of_lexemes {keys : List Text} {tokens : List Token} (filled : keys ≠ [])
    (same : tokens.map Token.lexeme = separated true (keys.map Text.lexemes)) (keyword : Token) :
    ∃ listed, groupKeys keyword tokens = ⟨listed, none⟩ ∧ listed.map (·.text) = keys := by
  have each : ∀ key ∈ keys, ∀ tokens : List Token, tokens.map Token.lexeme = key.lexemes true →
      ∃ token, KeyPhrase tokens token ∧ token.text = key := by
    intro key _ tokens same
    rw [key.lexemes_true] at same
    obtain ⟨token, rfl, is⟩ := List.map_eq_singleton_iff.mp same
    obtain ⟨kind, text⟩ := Prod.mk.inj is
    exact ⟨token, .word kind, text⟩
  obtain ⟨listed, read, texts⟩ := listed_of_lexemes each filled same
  exact ⟨listed, groupKeys_eq_iff.mpr read, List.forall₂_eq_eq_eq ▸ List.forall₂_map_left_iff.mpr texts⟩

theorem Direction.ofName?_name (direction : Direction) :
    Direction.ofName? direction.name = some direction := by
  cases direction <;> decide

/-- Sort keys are read back with their directions. -/
theorem orderKeys_of_lexemes {keys : List SortKey} {tokens : List Token} (filled : keys ≠ [])
    (same : tokens.map Token.lexeme = separated true (keys.map SortKey.piece)) (next : Token) :
    ∃ listed, orderKeys next none tokens = ⟨listed, none⟩ ∧
      listed.map (fun (token, direction) => ⟨token.text, direction⟩) = keys := by
  have each : ∀ key ∈ keys, ∀ tokens : List Token, tokens.map Token.lexeme = key.piece true →
      ∃ item : Token × Direction, SortPhrase tokens item ∧ (⟨item.1.text, item.2⟩ : SortKey) = key := by
    intro key _ tokens same
    rw [SortKey.piece, Text.lexemes_true] at same
    obtain ⟨token, more, rfl, is, rest⟩ := List.map_eq_cons_iff.mp same
    obtain ⟨direction, rfl, directs⟩ := List.map_eq_singleton_iff.mp rest
    obtain ⟨kind, text⟩ := Prod.mk.inj is
    obtain ⟨directionKind, name⟩ := Prod.mk.inj directs
    have named : Direction.ofName? direction.text = some key.direction := by
      rw [name, Direction.ofName?_name]
    exact ⟨(token, key.direction), .directed kind directionKind named, by rw [text]⟩
  obtain ⟨listed, read, sorts⟩ := listed_of_lexemes each filled same
  exact ⟨listed, orderKeys_eq_iff.mpr read, List.forall₂_eq_eq_eq ▸ List.forall₂_map_left_iff.mpr sorts⟩

end RecordQuery
