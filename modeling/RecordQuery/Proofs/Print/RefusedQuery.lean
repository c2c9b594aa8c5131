import RecordQuery.Proofs.Print.Refused

namespace RecordQuery

open Query

/-- How the name of a selected property is written where no value may begin, and anywhere. -/
def NamesColumn (fresh : Bool) (path : Text) : Prop :=
  (fresh = false → path.isSigned = false) ∧ path.sameFold "FROM" = false

/-- An entry that is read from the tokens of a select list is what stands there. -/
theorem entry_of_itemPhrase {entry : Selected} {own rest phrase left : List Token}
    (same : own.map Token.lexeme = entry.piece fresh) (item : ItemPhrase phrase found)
    (shape : own ++ next :: rest = phrase ++ after :: left) (closed : next.kind ≠ .opening)
    (ends : after.kind = .comma ∨ after.kind = .word) :
    phrase = own ∧ ∀ path, entry = .property path → NamesColumn fresh path := by
  cases entry with
  | property path =>
    by_cases torn : path.isSigned = true ∧ fresh = false
    · change own.map Token.lexeme = path.lexemes fresh at same
      rw [Text.lexemes, if_pos torn] at same
      obtain ⟨sign, _, rfl, is, -⟩ := List.map_eq_cons_iff.mp same
      have operator := (Token.lexeme_eq is).1
      cases item with
      | word word _ | call word _ _ _ _ _ =>
        obtain ⟨rfl, -⟩ := List.cons.inj shape
        cases operator.symm.trans word
    · change own.map Token.lexeme = path.lexemes fresh at same
      rw [Text.lexemes, if_neg torn] at same
      obtain ⟨token, rfl, is⟩ := List.map_eq_singleton_iff.mp same
      cases item with
      | word word plain =>
        obtain ⟨rfl, -⟩ := List.cons.inj shape
        refine ⟨rfl, ?_⟩
        rintro _ ⟨⟩
        rw [Token.isKeyword_of_lexeme is] at plain
        exact ⟨fun stale => by simpa [stale] using torn, plain⟩
      | call _ _ _ opens _ _ =>
        obtain ⟨-, rest⟩ := List.cons.inj shape
        obtain ⟨rfl, -⟩ := List.cons.inj rest
        exact absurd opens closed
  | aggregate call overCollection =>
    obtain ⟨name, more, rfl, is, rest⟩ := List.map_eq_cons_iff.mp same
    obtain ⟨opening, others, rfl, opens, inside⟩ := List.map_eq_cons_iff.mp rest
    obtain ⟨argument, last, rfl, argues, closed⟩ := List.map_eq_cons_iff.mp inside
    obtain ⟨closing, rfl, closes⟩ := List.map_eq_singleton_iff.mp closed
    refine ⟨?_, by simp⟩
    cases item with
    | word _ _ =>
      simp only [List.cons_append, List.nil_append, List.cons.injEq] at shape
      rw [← shape.2.1, (Token.lexeme_eq opens).1] at ends
      simp at ends
    | call _ _ _ _ _ _ =>
      simp only [List.cons_append, List.nil_append, List.cons.injEq] at shape
      obtain ⟨rfl, rfl, rfl, rfl, -⟩ := shape
      rfl

/-- A select list that is read from its tokens is read whole. -/
theorem entries_of_listed {entries : List Selected} {listed rest phrase left : List Token}
    (filled : entries ≠ [])
    (same : listed.map Token.lexeme = separated fresh (entries.map Selected.piece))
    (separates : from_.isKeyword "FROM" = true) (selected : Listed ItemPhrase phrase items)
    (shape : listed ++ from_ :: rest = phrase ++ other :: left)
    (ends : other.isKeyword "FROM" = true) :
    phrase = listed ∧ (∀ path, entries.head? = some (.property path) → NamesColumn fresh path) ∧
      ∀ path, .property path ∈ entries → path.sameFold "FROM" = false := by
  have word := Token.kind_of_isKeyword separates
  have endWord := Token.kind_of_isKeyword ends
  induction entries generalizing fresh listed phrase items with
  | nil => exact absurd rfl filled
  | cons entry entries ih =>
    cases entries with
    | nil =>
      cases selected with
      | one item =>
        obtain ⟨same, names⟩ := entry_of_itemPhrase same item shape (by simp [word]) (.inr endWord)
        refine ⟨same, ?_, ?_⟩
        · intro path first
          exact names path (Option.some.inj first)
        · intro path member
          exact (names path (List.mem_singleton.mp member).symm).2
      | cons item separator more =>
        rw [List.append_assoc, List.cons_append] at shape
        obtain ⟨rfl, -⟩ := entry_of_itemPhrase same item shape (by simp [word]) (.inl separator)
        obtain ⟨rfl, -⟩ := List.cons.inj (List.append_cancel_left shape)
        cases word.symm.trans separator
    | cons next entries =>
      rw [List.map_cons, List.map_cons, separated] at same
      obtain ⟨own, more, rfl, first, rest⟩ := List.map_eq_append_iff.mp same
      obtain ⟨comma, later, rfl, is, listed⟩ := List.map_eq_cons_iff.mp rest
      have commaKind := (Token.lexeme_eq is).1
      rw [List.append_assoc, List.cons_append] at shape
      cases selected with
      | one item =>
        obtain ⟨rfl, -⟩ := entry_of_itemPhrase first item shape (by simp [commaKind]) (.inr endWord)
        obtain ⟨rfl, -⟩ := List.cons.inj (List.append_cancel_left shape)
        cases commaKind.symm.trans endWord
      | @cons phrase item separator tokens items entry isComma more =>
        rw [List.append_assoc, List.cons_append] at shape
        obtain ⟨rfl, names⟩ := entry_of_itemPhrase first entry shape (by simp [commaKind]) (.inl isComma)
        obtain ⟨rfl, later⟩ := List.cons.inj (List.append_cancel_left shape)
        obtain ⟨rfl, -, columns⟩ := ih (by simp) listed more later
        refine ⟨rfl, ?_, ?_⟩
        · intro path head
          exact names path (Option.some.inj head)
        · intro path member
          rcases List.mem_cons.mp member with here | inside
          · exact (names path here.symm).2
          · exact columns path inside

/-- What is allowed in a list of grouping keys is allowed of the last one. -/
theorem lastKey_of_surface {allowed : Token → List Token → Prop} {keys : List Text}
    {tokens : List Token} (surface : Surface allowed after 0 tokens)
    (same : tokens.map Token.lexeme = separated true (keys.map Text.lexemes))
    (final : key ∈ keys.getLast?) : ∃ token, token.lexeme = Lexeme.word key ∧ allowed token after := by
  induction keys generalizing tokens with
  | nil => cases final
  | cons first keys ih =>
    cases keys with
    | nil =>
      cases final
      rw [List.map_cons, List.map_nil, separated, Text.lexemes_true] at same
      obtain ⟨token, rfl, is⟩ := List.map_eq_singleton_iff.mp same
      exact ⟨token, is, surface.2.1 rfl⟩
    | cons next keys =>
      rw [List.map_cons, List.map_cons, separated, Text.lexemes_true] at same
      obtain ⟨token, more, rfl, is, rest⟩ := List.map_eq_cons_iff.mp same
      obtain ⟨comma, later, rfl, separator, listed⟩ := List.map_eq_cons_iff.mp rest
      have inner := surface.2.2.2.2
      rw [openAfter, openAfter, (Token.lexeme_eq is).1, (Token.lexeme_eq separator).1] at inner
      exact ih inner listed (by simpa using final)

/-- A name whose tokens start with a word has no sign that stands apart. -/
theorem unsigned_of_word {name : Text} {tokens rest left : List Token}
    (same : tokens.map Token.lexeme = name.lexemes false) (shape : tokens ++ rest = token :: left)
    (word : token.kind = .word) : name.isSigned = false := by
  by_contra signed
  rw [Text.lexemes, if_pos ⟨by simpa using signed, rfl⟩] at same
  obtain ⟨sign, _, rfl, is, -⟩ := List.map_eq_cons_iff.mp same
  obtain ⟨rfl, -⟩ := List.cons.inj shape
  cases (Token.lexeme_eq is).1.symm.trans word

theorem guarded_of_quiet (quiet : windowAt token rest = .ok none) : Guarded token rest := by
  intro opened opens
  cases quiet.symm.trans opens

/-- In a query that can be spelled, names open clauses only before operators. -/
theorem Criteria.guarded_clauses {criteria : Criteria} (spelled : criteria.Spelled)
    (before : List Clause) (clause : Clause) (later : List Clause) (tokens after : List Token)
    (split : Clause.all = before ++ clause :: later)
    (given : criteria.own clause = some (tokens.map Token.lexeme))
    (tail : after.map Token.lexeme = tailLexemes criteria.own later) :
    Surface Guarded after 0 tokens := by
  obtain ⟨frame, restricted⟩ := Criteria.holds_iff.mp spelled
  refine criteria.surface_clauses (fun _ _ => guarded_of_quiet) frame ?_ ?_ before clause later tokens
    after split given tail
  · intro restriction member tokens after same
    refine Restriction.surface (tolerates_of_quiet fun _ _ => guarded_of_quiet) ?_ .clause rfl after
      tokens restriction (restricted restriction member) same
    intro _ _ _ _ symbol rest _ _ _ _ isSymbol _ _
    exact ⟨symbol, rest, rfl, isSymbol⟩
  · intro key final token after is tail
    exact guarded_key (frame.groupBy.closed key (List.mem_of_getLast? final)) is (tail_unlike_by tail)

namespace Compiler

variable {compiler : Compiler} {depth : Nat}

/-- The row counts of a query that was put together are numbers. -/
theorem counts_of_assembly {schema : Schema} {read : RestrictionReader} {criteria : Criteria}
    (windows : Windows seen tokens found)
    (assembly : Assembly schema read isSubquery ending type selected found criteria) : Counts found := by
  have number : ∀ {kind : RowCount} {window : Window} {count : Int},
      rowCount kind window.keyword window.tokens = .ok count →
      ∃ token, window.tokens = [token] ∧ (Text.toInt? token.text).isSome := by
    intro kind window count counted
    obtain ⟨token, only, -, value, -⟩ := rowCount_eq_ok_iff.mp counted
    exact ⟨token, only, by simp [value]⟩
  intro window member count
  obtain ⟨next, here⟩ := windows.window? member ending
  rcases count with limit | offset
  · have related := assembly.limit
    rw [← limit, here] at related
    obtain ⟨_, -, counted⟩ := option_rel_some related
    exact number counted
  · have related := assembly.offset
    rw [← offset, here] at related
    obtain ⟨_, -, counted⟩ := option_rel_some related
    exact number counted

/-- The restriction of a clause has names that fit if it can be read. -/
theorem placed_of_readWhere {restriction : Restriction}
    (only : ∀ less, depth = less + 1 → compiler.DerivesOnlyPlaced less)
    (admitted : compiler.schema.Admits compiler.packages type restriction)
    (spelled : restriction.Spelled .clause)
    (levels : (if restriction.isJunction then restriction.levels else restriction.levels + 1) ≤ depth)
    (same : window.tokens.map Token.lexeme = restriction.lexemes .clause)
    (quiet : Place.chain.Quiet window.tokens)
    (read : readWhere (compiler.restriction depth) window next = .ok found) :
    restriction.Placed .clause := by
  obtain ⟨-, yields⟩ := readWhere_eq_ok_iff.mp read
  have written := written_bracketed ((Restriction.enclosed .clause restriction).written same) next
  obtain ⟨phrase, shape, derived⟩ := (reads_restriction compiler depth next _ written found []).mp yields
  cases depth with
  | zero => exact derived.elim
  | succ depth =>
    have last : ∀ token ∈ [(⟨.closing, ")", next.position⟩ : Token)], token.kind.isWritten = true := by
      simp [TokenKind.isWritten]
    cases single : restriction.isJunction with
    | true =>
      cases restriction with
      | junction connective children =>
        have expresses : compiler.Expresses (depth + 1) type .clause (.junction connective children) :=
          ⟨admitted, spelled, by simpa [single] using levels⟩
        obtain ⟨first, second, others, rfl, expressesFirst, expressesLinks⟩ := expresses.children
        exact placed_of_junction (only depth rfl) rfl expressesFirst expressesLinks quiet last same rfl shape
          derived
      | _ => cases single
    | false =>
      rw [single] at levels
      have expresses : compiler.Expresses depth type .chain restriction :=
        ⟨admitted, (Restriction.holds_chain_iff single fun _ => Iff.rfl).mp spelled, by simpa using levels⟩
      rw [Restriction.placed_chain_iff single]
      rw [Restriction.lexemes_clause single] at same
      rcases Phrase.of_opening derived shape rfl with
        ⟨inner, _, split, derived, -⟩ | ⟨inner, _, _, _, _, _, _, -, split, derived, -⟩
      · exact only depth rfl type .chain restriction _ _ inner _ _ rfl expresses quiet last same split derived
      · exact only depth rfl type .chain restriction _ _ inner _ _ rfl expresses quiet last same split derived

/-- The clause of a query that is read from its tokens, with what no clause opens in. -/
theorem clause_of_assembly {read : RestrictionReader} {query other : Criteria} {clauses : List Token}
    {lexemes : List Lexeme} {clause : Clause} {before later : List Clause} {found : List Window}
    (spelled : query.Spelled) (windows : Windows [] clauses found)
    (assembly : Assembly compiler.schema read isSubquery ending type selected found other)
    (tail : clauses.map Token.lexeme = tailLexemes query.own Clause.all)
    (split : Clause.all = before ++ clause :: later) (given : query.own clause = some lexemes) :
    ∃ window next after, window? ending clause found = some (window, next) ∧
      window.tokens.map Token.lexeme = lexemes ∧
      after.map Token.lexeme = tailLexemes query.own later ∧ Unbroken after 0 window.tokens := by
  have counts := counts_of_assembly windows assembly
  obtain ⟨window, member, rfl, same, after, follows, unbroken⟩ :=
    clauses_of_windows counts (query.guarded_clauses spelled) windows tail before clause later lexemes split given
  obtain ⟨next, here⟩ := windows.window? member ending
  exact ⟨window, next, after, here, same, follows, unbroken⟩

/-- Nothing comes after the last grouping key, so it is not read as half of a keyword. -/
theorem unpaired_of_assembly {read : RestrictionReader} {query other : Criteria} {clauses : List Token}
    {found : List Window} {key : Text} (spelled : query.Spelled) (windows : Windows [] clauses found)
    (assembly : Assembly compiler.schema read isSubquery ending type selected found other)
    (tail : clauses.map Token.lexeme = tailLexemes query.own Clause.all)
    (alone : query.orderBy = [] ∧ query.limit = none ∧ query.offset = none)
    (final : key ∈ query.groupBy.getLast?) :
    key.sameFold "GROUP" = false ∧ key.sameFold "ORDER" = false := by
  have given : query.own .groupBy = some (separated false (query.groupBy.map Text.lexemes)) := by
    have filled : query.groupBy ≠ [] := List.ne_nil_of_mem (List.mem_of_getLast? final)
    simp [Criteria.own, clauseLexemes, filled]
  have split : Clause.all = [.where_] ++ .groupBy :: [.orderBy, .limit, .offset] := rfl
  obtain ⟨window, -, after, -, keys, follows, unbroken⟩ :=
    clause_of_assembly spelled windows assembly tail split given
  rw [Criteria.tailLexemes_eq_nil_iff.mpr alone, List.map_eq_nil_iff] at follows
  subst follows
  rw [(Criteria.holds_iff.mp spelled).1.groupBy.groupLexemes] at keys
  obtain ⟨token, is, quiet⟩ := lastKey_of_surface unbroken keys final
  exact unpaired_of_quiet is quiet

/-- A query that is compiled from its tokens has names that fit. -/
theorem placed_of_query {query : Criteria} {tokens : List Token}
    (only : ∀ less, depth = less + 1 → compiler.DerivesOnlyPlaced less)
    (expresses : compiler.ExpressesQuery depth isSubquery query) (notWord : ending.kind ≠ .word)
    (same : tokens.map Token.lexeme = query.lexemes)
    (compiled : compiler.query (compiler.restriction depth) flag ending tokens = .ok found) :
    query.Placed := by
  obtain ⟨accepted, -, spelled, levels⟩ := expresses
  obtain ⟨frames, admitted⟩ := Schema.accepts_iff.mp accepted
  obtain ⟨-, spelledRestriction⟩ := Criteria.holds_iff.mp spelled
  obtain ⟨select, listed, from_, name, clauses, rfl, -, list, separates, names, tail⟩ :=
    parts_of_lexemes same
  obtain ⟨parts, assembled⟩ := (query_eq_ok_iff notWord).mp compiled
  have assembly := assemble_eq_ok_iff.mp assembled
  obtain ⟨-, shape⟩ := List.cons.inj parts.shape
  have filled : query.entries false ≠ [] := by
    simpa [Criteria.entries, or_iff_not_imp_left] using frames.selects
  have pieces : (query.entries false).map Selected.piece = _ := query.pieces_entries
  rw [← pieces] at list
  obtain ⟨whole, first, columns⟩ :=
    entries_of_listed filled list separates parts.listed shape parts.separates
  rw [whole] at shape
  obtain ⟨-, typed⟩ := List.cons.inj (List.append_cancel_left shape)
  have unsigned := unsigned_of_word names typed parts.word
  rw [Text.lexemes_of_unsigned unsigned] at names
  obtain ⟨token, rfl, -⟩ := List.map_eq_singleton_iff.mp names
  obtain ⟨-, rest⟩ := List.cons.inj typed
  have tailRead : parts.clauses.map Token.lexeme = tailLexemes query.own Clause.all := by
    rw [← tail, ← rest]
    rfl
  refine Criteria.holds_iff.mpr ⟨⟨unsigned, ?_, ?_, ?_⟩, ?_⟩
  · intro path head
    refine (first path ?_).1 rfl
    simp only [Criteria.entries, List.head?_append, List.head?_map]
    rw [Option.mem_def.mp head]
    rfl
  · intro path member
    exact columns path (List.mem_append_left _ (List.mem_map_of_mem member))
  · intro orderBy limit offset key final
    exact unpaired_of_assembly spelled parts.split assembly tailRead ⟨orderBy, limit, offset⟩ final
  · intro restriction given
    have here : query.own .where_ = some (restriction.lexemes .clause) := by
      simp [Criteria.own, clauseLexemes, Option.mem_def.mp given]
    have split : Clause.all = [] ++ .where_ :: [.groupBy, .orderBy, .limit, .offset] := rfl
    obtain ⟨window, next, after, at_, own, -, unbroken⟩ :=
      clause_of_assembly spelled parts.split assembly tailRead split here
    have related := assembly.restriction
    rw [at_] at related
    obtain ⟨other, -, read, -⟩ := option_rel_some related
    rw [Criteria.levels_of_some given] at levels
    exact placed_of_readWhere only (admitted restriction given) (spelledRestriction restriction given) levels
      own (fun _ => ⟨after, unbroken⟩) read

/-- Whatever is read from the tokens of a nested restriction, its names fit, however deep it is. -/
theorem derivesOnlyPlaced (compiler : Compiler) (depth : Nat) : compiler.DerivesOnlyPlaced depth := by
  -- A subquery is two levels down, so the induction is on all smaller depths.
  induction depth using Nat.strongRecOn with
  | ind depth ih =>
    cases depth with
    | zero =>
      intro _ _ _ _ _ _ _ _ _ _ _ _ _ _ derived
      exact derived.elim
    | succ depth =>
      refine derivesOnlyPlaced_succ (ih depth (by omega)) ?_
      rintro less rfl query closing tokens found closes expresses same compiled
      exact placed_of_query (fun fewer shape => ih fewer (by omega)) expresses (by simp [closes]) same compiled

end Compiler
end RecordQuery
