import RecordQuery.Proofs.Compile.Assembly
import RecordQuery.Proofs.Distinct
import RecordQuery.Proofs.Grammar.Keys
import RecordQuery.Proofs.Print.Keys
import RecordQuery.Proofs.Print.Select

namespace RecordQuery

open Query

/-- The entries that a query selects. -/
def Criteria.entries (criteria : Criteria) (overCollection : Bool) : List Selected :=
  criteria.properties.map .property ++ criteria.aggregates.map (.aggregate · overCollection)

section Entries

variable {criteria : Criteria} {overCollection : Bool}

theorem Criteria.pieces_entries :
    (criteria.entries overCollection).map Selected.piece =
      criteria.properties.map Text.lexemes ++ criteria.aggregates.map AggregateCall.piece := by
  simp [Criteria.entries, Function.comp_def, Selected.piece]

theorem Criteria.properties_entries :
    (criteria.entries overCollection).filterMap (·.property?) = criteria.properties := by
  simp [Criteria.entries, List.filterMap_append, List.filterMap_map, Selected.property?]

theorem Criteria.aggregates_entries :
    (criteria.entries overCollection).filterMap (·.aggregate?) = criteria.aggregates := by
  simp [Criteria.entries, List.filterMap_append, List.filterMap_map, Selected.aggregate?]

/-- The select list starts with a whole word. -/
theorem Criteria.separated_entries
    (first : ∀ path ∈ criteria.properties.head?, path.isSigned = false) :
    separated false ((criteria.entries overCollection).map Selected.piece) =
      separated true ((criteria.entries overCollection).map Selected.piece) := by
  apply separated_fresh
  intro piece head
  rw [List.head?_map] at head
  obtain ⟨entry, front, rfl⟩ := Option.map_eq_some_iff.mp head
  cases entry with
  | property path =>
    have unsigned : path.isSigned = false := by
      apply first
      cases shape : criteria.properties with
      | nil =>
        simp only [Criteria.entries, shape, List.map_nil, List.nil_append, List.head?_map] at front
        obtain ⟨call, -, clash⟩ := Option.map_eq_some_iff.mp front
        cases clash
      | cons other properties => simpa [Criteria.entries, shape] using front
    simp only [Selected.piece, Text.lexemes_of_unsigned unsigned]
  | aggregate call kind => rfl

end Entries

theorem option_rel_of_map {related : α → γ → Prop} {other : α → β → Prop} {image : β → γ}
    {value : Option α} {result : Option β} (all : Option.Rel related value (result.map image))
    (each : ∀ x, ∀ y ∈ result, related x (image y) → other x y) : Option.Rel other value result := by
  cases result with
  | none =>
    cases all
    exact .none
  | some y =>
    cases all with
    | some holds => exact .some (each _ y rfl holds)

/-- Nothing follows the grouping keys if there are no later clauses. -/
theorem Criteria.tailLexemes_eq_nil_iff {criteria : Criteria} :
    tailLexemes criteria.own [.orderBy, .limit, .offset] = [] ↔
      criteria.orderBy = [] ∧ criteria.limit = none ∧ criteria.offset = none := by
  constructor
  · intro nothing
    have missing := own_eq_none_of_tailLexemes nothing
    have orderBy := missing .orderBy (by decide)
    have limit := missing .limit (by decide)
    have offset := missing .offset (by decide)
    simp only [Criteria.own, clauseLexemes] at orderBy limit offset
    exact ⟨by simpa using orderBy, by simpa using limit, by simpa using offset⟩
  · rintro ⟨orderBy, limit, offset⟩
    simp [tailLexemes, Criteria.own, clauseLexemes, orderBy, limit, offset]

/-- What opens a clause is allowed nowhere in a query whose names fit. -/
theorem Criteria.unbroken_clauses {criteria : Criteria} (spelled : criteria.SpelledFrame)
    (placed : criteria.Placed) (before : List Clause) (clause : Clause) (later : List Clause)
    (tokens after : List Token) (split : Clause.all = before ++ clause :: later)
    (given : criteria.own clause = some (tokens.map Token.lexeme))
    (tail : after.map Token.lexeme = tailLexemes criteria.own later) : Unbroken after 0 tokens := by
  obtain ⟨frame, restricted⟩ := Criteria.holds_iff.mp placed
  refine criteria.surface_clauses (fun _ _ quiet => quiet) spelled ?_ ?_ before clause later tokens
    after split given tail
  · intro restriction member tokens after same
    refine Restriction.surface (tolerates_of_quiet fun _ _ quiet => quiet) ?_ .clause rfl after tokens
      restriction (restricted restriction member) same
    intro place leaf path token symbol rest exposed fits property own isSymbol
    have fit := fits path property
    rw [Text.lexemes_of_unsigned (fit.whole (Place.isFresh_of_isExposed exposed))] at own
    exact windowAt_key (fit.closed exposed) (List.mem_singleton.mp own) (by simp [isSymbol.unlike_by])
      (by simp)
  · intro key final token after is tail
    refine windowAt_key ?_ is (tail_unlike_by tail) ?_
    · exact spelled.groupBy.closed key (List.mem_of_getLast? final)
    · rintro rfl
      obtain ⟨orderBy, limit, offset⟩ := Criteria.tailLexemes_eq_nil_iff.mp tail.symm
      exact frame.last orderBy limit offset key final

/-- Only a junction is written otherwise when it is the whole of a clause. -/
theorem Restriction.lexemes_clause {restriction : Restriction}
    (single : restriction.isJunction = false) :
    restriction.lexemes .clause = restriction.lexemes .chain := by
  cases restriction with
  | junction connective children => cases single
  | _ => rfl

theorem Text.lexemes_ne_nil (w : Text) (fresh : Bool) : w.lexemes fresh ≠ [] := by
  unfold Text.lexemes
  split <;> simp

theorem Restriction.lexemes_ne_nil {restriction : Restriction} (nested : place.isNested = true)
    (present : restriction ≠ .missing) : restriction.lexemes place ≠ [] := by
  cases restriction with
  | missing => exact absurd rfl present
  | junction connective children =>
    cases children <;> simp [Restriction.lexemes, Place.bracket, nested]
  | _ => simp [Restriction.lexemes, Text.lexemes_ne_nil]

theorem Restriction.lexemes_clause_ne_nil {restriction : Restriction} {schema : Schema}
    (admitted : schema.Admits packages type restriction) : restriction.lexemes .clause ≠ [] := by
  have present : ∀ {restriction : Restriction}, schema.Admits packages type restriction →
      restriction ≠ .missing := by
    rintro _ admitted rfl
    exact admitted
  cases restriction with
  | junction connective children =>
    obtain ⟨many, all⟩ := admitted
    match children, many with
    | first :: second :: others, _ =>
      have filled := Restriction.lexemes_ne_nil (show Place.chain.isNested = true from rfl) (present all.1)
      simp [Restriction.lexemes, Place.bracket, Place.isNested, Place.first, filled]
  | _ =>
    rw [Restriction.lexemes_clause rfl]
    exact Restriction.lexemes_ne_nil rfl (present admitted)

/-- Whatever is no junction stands in a clause as it stands in a chain. -/
theorem Restriction.holds_chain_iff {restriction : Restriction} {frame : Criteria → Prop}
    {leaf : Place → Restriction → Prop} (single : restriction.isJunction = false)
    (same : ∀ restriction, leaf .clause restriction ↔ leaf .chain restriction) :
    restriction.Holds frame leaf .clause ↔ restriction.Holds frame leaf .chain := by
  cases restriction with
  | junction connective children => cases single
  | inQuery path query => exact and_congr_left' (same _)
  | not child => exact Iff.rfl
  | _ => exact same _

theorem Restriction.placed_chain_iff {restriction : Restriction}
    (single : restriction.isJunction = false) :
    restriction.Placed .clause ↔ restriction.Placed .chain := by
  apply Restriction.holds_chain_iff single
  intro leaf
  constructor
  · intro fits path property
    exact ⟨(fits path property).whole, (fits path property).closed⟩
  · intro fits path property
    exact ⟨(fits path property).whole, (fits path property).closed⟩

namespace Compiler

variable {compiler : Compiler} {depth : Nat} {type : RecordType} {restriction : Restriction}

/-- The tokens of a clause, in brackets, derive its restriction. -/
theorem derives_of_clause {tokens : List Token} (derives : compiler.DerivesWritten depth)
    (admitted : compiler.schema.Admits compiler.packages type restriction)
    (spelled : restriction.Spelled .clause) (placed : restriction.Placed .clause)
    (levels : (if restriction.isJunction then restriction.levels else restriction.levels + 1) ≤ depth + 1)
    (same : tokens.map Token.lexeme = restriction.lexemes .clause)
    (opens : opening.kind = .opening) (closes : closing.kind = .closing) :
    compiler.Derives (depth + 1) (opening :: (tokens ++ [closing])) restriction := by
  change Phrase (compiler.Derives depth) (compiler.subquery depth) _ restriction
  cases single : restriction.isJunction with
  | true =>
    cases restriction with
    | junction connective children =>
      have expresses : compiler.Expresses (depth + 1) type .clause (.junction connective children) :=
        ⟨admitted, spelled, by simpa [single] using levels⟩
      obtain ⟨first, second, others, rfl, expressesFirst, expressesLinks⟩ := expresses.children
      exact junctionPhrase_of_lexemes derives rfl expressesFirst expressesLinks placed opens closes same
    | _ => cases single
  | false =>
    rw [single] at levels
    have expresses : compiler.Expresses depth type .chain restriction :=
      ⟨admitted, (Restriction.holds_chain_iff single fun _ => Iff.rfl).mp spelled, by simpa using levels⟩
    have fits := (Restriction.placed_chain_iff single).mp placed
    rw [Restriction.lexemes_clause single] at same
    exact .bracket opens (derives type .chain restriction tokens rfl expresses fits same) closes

theorem readWhere_of_lexemes (derives : ∀ less, depth = less + 1 → compiler.DerivesWritten less)
    (admitted : compiler.schema.Admits compiler.packages type restriction)
    (spelled : restriction.Spelled .clause) (placed : restriction.Placed .clause)
    (levels : (if restriction.isJunction then restriction.levels else restriction.levels + 1) ≤ depth)
    (same : window.tokens.map Token.lexeme = restriction.lexemes .clause) :
    readWhere (compiler.restriction depth) window next = .ok restriction := by
  have positive := restriction.levels_pos
  cases depth with
  | zero => split at levels <;> omega
  | succ depth =>
    have derived : compiler.Derives (depth + 1) (bracketed window next) restriction :=
      derives_of_clause (derives depth rfl) admitted spelled placed levels same rfl rfl
    refine (readWhere_eq_ok_iff_derives ((Restriction.enclosed .clause restriction).written same)).mpr
      ⟨?_, derived⟩
    intro empty
    rw [empty] at same
    exact Restriction.lexemes_clause_ne_nil admitted same.symm

/-- Row counts, grouping keys and sort keys are read back from the windows found for them. -/
theorem rowCount_of_rel {found : Option (Window × Token)} {limit : Option Int}
    (fits : ∀ count ∈ limit, Schema.IsRowCount count)
    (finds : Option.Rel (fun (window, _) lexemes => window.tokens.map Token.lexeme = lexemes) found
      (limit.map fun count => [Lexeme.word (Text.ofInt count)])) :
    Option.Rel (fun (window, _) count => rowCount kind window.keyword window.tokens = .ok count) found
      limit := by
  refine option_rel_of_map finds ?_
  rintro ⟨window, next⟩ count member same
  obtain ⟨token, only, is⟩ := List.map_eq_singleton_iff.mp same
  obtain ⟨word, text⟩ := Token.lexeme_eq is
  have bounds := fits count member
  refine rowCount_eq_ok_iff.mpr ⟨token, only, word, ?_, bounds⟩
  rw [text, Text.toInt?_ofInt bounds.1]

theorem bindGroupKeys_of_rel {query : Criteria} {found : Option (Window × Token)}
    (frames : compiler.schema.Frames compiler.packages query) (spelled : query.SpelledFrame) :
    Option.Rel (fun (window, _) lexemes => window.tokens.map Token.lexeme = lexemes) found
      (query.own .groupBy) →
    match found with
    | none => [] = query.groupBy
    | some (window, _) => bindGroupKeys compiler.schema query.type
        (groupKeys window.keyword window.tokens) = .ok query.groupBy := by
  intro finds
  generalize given : query.own .groupBy = own at finds
  cases finds with
  | none =>
    have empty : query.groupBy = [] := by simpa [Criteria.own, clauseLexemes] using given
    exact empty.symm
  | @some pair _ same =>
    obtain ⟨window, next⟩ := pair
    obtain ⟨filled, rfl⟩ := query.own_groupBy spelled.groupBy given
    obtain ⟨listed, read, keys⟩ := groupKeys_of_lexemes filled same window.keyword
    change bindGroupKeys _ _ (groupKeys window.keyword window.tokens) = _
    rw [read, bindGroupKeys_eq_ok_iff]
    refine ⟨?_, rfl, ?_⟩
    · intro token member
      exact frames.groupBy _ (keys ▸ List.mem_map_of_mem member)
    · simp only
      rw [keys, eraseDups_of_nodup frames.distinctKeys]

theorem bindSortKeys_of_rel {query : Criteria} {found : Option (Window × Token)}
    (frames : compiler.schema.Frames compiler.packages query) (spelled : query.SpelledFrame) :
    Option.Rel (fun (window, _) lexemes => window.tokens.map Token.lexeme = lexemes) found
      (query.own .orderBy) →
    match found with
    | none => [] = query.orderBy
    | some (window, next) => bindSortKeys compiler.schema query.type
        (orderKeys next none window.tokens) = .ok query.orderBy := by
  intro finds
  generalize given : query.own .orderBy = own at finds
  cases finds with
  | none =>
    have empty : query.orderBy = [] := by simpa [Criteria.own, clauseLexemes] using given
    exact empty.symm
  | @some pair _ same =>
    obtain ⟨window, next⟩ := pair
    obtain ⟨filled, rfl⟩ := query.own_orderBy spelled.orderBy given
    obtain ⟨listed, read, keys⟩ := orderKeys_of_lexemes filled same next
    change bindSortKeys _ _ (orderKeys next none window.tokens) = _
    rw [read, bindSortKeys_eq_ok_iff]
    refine ⟨?_, rfl, keys⟩
    intro key member
    exact frames.orderBy _ (keys ▸ List.mem_map_of_mem member)

/-- A query is put together from the clauses that are found for it. -/
theorem assembly_of_lexemes {query : Criteria} {found : List Window}
    (derives : ∀ less, depth = less + 1 → compiler.DerivesWritten less)
    (expresses : compiler.ExpressesQuery depth isSubquery query) (placed : query.Placed)
    (finds : FindsClauses query.own Clause.all found) (ending : Token) (overCollection : Bool) :
    Assembly compiler.schema (compiler.restriction depth) isSubquery ending query.type
      (query.entries overCollection) found query := by
  obtain ⟨accepted, flag, spelled, levels⟩ := expresses
  obtain ⟨frames, admitted⟩ := Schema.accepts_iff.mp accepted
  obtain ⟨spelledFrame, spelledRestriction⟩ := Criteria.holds_iff.mp spelled
  obtain ⟨-, placedRestriction⟩ := Criteria.holds_iff.mp placed
  have each : ∀ clause, Option.Rel
      (fun (window, _) lexemes => window.tokens.map Token.lexeme = lexemes)
      (window? ending clause found) (query.own clause) := by
    intro clause
    have here := finds ending clause
    rwa [if_pos (by cases clause <;> decide)] at here
  refine ⟨?_, bindGroupKeys_of_rel frames spelledFrame (each .groupBy), frames.grouped,
    bindSortKeys_of_rel frames spelledFrame (each .orderBy),
    rowCount_of_rel frames.limit (each .limit), rowCount_of_rel frames.offset (each .offset), rfl, ?_, ?_,
    flag, frames.aliases⟩
  · refine option_rel_of_map (each .where_) ?_
    rintro ⟨window, next⟩ restriction given same
    refine ⟨?_, checkRestriction_of_admits restriction (admitted restriction given)⟩
    refine readWhere_of_lexemes derives (admitted restriction given) (spelledRestriction restriction given)
      (placedRestriction restriction given) ?_ same
    rwa [Criteria.levels_of_some given] at levels
  · rw [query.properties_entries, eraseDups_of_nodup frames.distinct]
  · rw [query.aggregates_entries]

theorem readsBack_entries {query : Criteria}
    (frames : compiler.schema.Frames compiler.packages query) (spelled : query.SpelledFrame)
    (placed : query.PlacedFrame)
    (aggregates : ∀ call ∈ query.aggregates, compiler.schema.HasAggregate query.type overCollection call) :
    ∀ entry ∈ query.entries overCollection, ReadsBack compiler.schema query.type entry := by
  intro entry member
  rcases List.mem_append.mp member with property | aggregate
  · obtain ⟨path, inside, rfl⟩ := List.mem_map.mp property
    exact ⟨placed.columns path inside, fun same => spelled.wildcard (same ▸ inside),
      frames.properties path inside⟩
  · obtain ⟨call, inside, rfl⟩ := List.mem_map.mp aggregate
    exact ⟨spelled.counted call inside, aggregates call inside⟩

/-- A query is compiled from its tokens. -/
theorem query_of_lexemes {query : Criteria}
    (derives : ∀ less, depth = less + 1 → compiler.DerivesWritten less)
    (expresses : compiler.ExpressesQuery depth isSubquery query) (placed : query.Placed)
    (notWord : ending.kind ≠ .word) (same : tokens.map Token.lexeme = query.lexemes) :
    compiler.query (compiler.restriction depth) isSubquery ending tokens = .ok query := by
  obtain ⟨frames, -⟩ := Schema.accepts_iff.mp expresses.accepted
  obtain ⟨spelled, -⟩ := Criteria.holds_iff.mp expresses.spelled
  obtain ⟨fits, -⟩ := Criteria.holds_iff.mp placed
  obtain ⟨overCollection, aggregates⟩ := frames.aggregates
  obtain ⟨select, listed, from_, name, clauses, rfl, selects, list, separates, names, tail⟩ :=
    parts_of_lexemes same
  rw [← query.pieces_entries, query.separated_entries fits.first] at list
  rw [Text.lexemes_of_unsigned fits.type] at names
  obtain ⟨type, rfl, typed⟩ := List.map_eq_singleton_iff.mp names
  obtain ⟨word, text⟩ := Token.lexeme_eq typed
  have filled : query.entries overCollection ≠ [] := by
    simpa [Criteria.entries, or_iff_not_imp_left] using frames.selects
  have each := readsBack_entries frames spelled fits aggregates
  obtain ⟨items, phrase, bound⟩ :=
    listed_of_lexemes (fun entry member _ => itemPhrase_of_lexemes (each entry member)) filled list
  have unmixed : Unmixed none (query.entries overCollection) := by
    refine ⟨overCollection, by simp, ?_⟩
    intro call kind member
    simp only [Criteria.entries, List.mem_append, List.mem_map] at member
    rcases member with ⟨_, -, clash⟩ | ⟨_, -, same⟩
    · cases clash
    · exact (Selected.aggregate.inj same).2.symm
  obtain ⟨found, windows, finds⟩ : ∃ found, Windows [] clauses found ∧
      FindsClauses query.own Clause.all found :=
    windows_of_clauses (by decide) (by simp) (query.unbroken_clauses spelled placed) tail
  have resolved : compiler.schema.resolve? compiler.packages type.text = some query.type := by
    rw [text, frames.known]
  exact (query_eq_ok_iff notWord).mpr ⟨⟨select, listed, items, from_, type, query.type,
    query.entries overCollection, clauses, found, rfl, selects, phrase, separates, word, resolved,
    bindSelect_eq_ok_iff.mpr ⟨bound, unmixed⟩, windows⟩,
    assemble_eq_ok_iff.mpr (assembly_of_lexemes derives expresses placed finds ending overCollection)⟩

/-- Nested restrictions are derived from their tokens, however deep. -/
theorem derivesWritten (compiler : Compiler) (depth : Nat) : compiler.DerivesWritten depth := by
  -- A subquery is two levels down, so the induction is on all smaller depths.
  induction depth using Nat.strongRecOn with
  | ind depth ih =>
    cases depth with
    | zero =>
      intro type place restriction tokens nested expresses
      exact absurd expresses.levels (Nat.not_le.mpr restriction.levels_pos)
    | succ depth =>
      refine derivesWritten_succ (ih depth (by omega)) ?_
      rintro less rfl query closing tokens closes expresses placed same
      exact query_of_lexemes (fun fewer shape => ih fewer (by omega)) expresses placed (by simp [closes])
        same

end Compiler
end RecordQuery
