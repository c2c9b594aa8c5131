import RecordQuery.Proofs.Compile.Binding
import RecordQuery.Proofs.Grammar.Query

namespace RecordQuery.Compiler

open Query

/-- How the parts of a query make up the whole. -/
structure Assembly (schema : Schema) (read : RestrictionReader) (isSubquery : Bool)
    (ending : Token) (type : RecordType) (selected : List Selected) (found : List Window)
    (criteria : Criteria) : Prop where
  restriction : Option.Rel
    (fun (window, next) restriction => readWhere read window next = .ok restriction ∧
      checkRestriction schema type restriction = .ok ())
    (window? ending .where_ found) criteria.restriction
  groupBy : match window? ending .groupBy found with
    | none => [] = criteria.groupBy
    | some (window, _) =>
      bindGroupKeys schema type (groupKeys window.keyword window.tokens) = .ok criteria.groupBy
  grouped : criteria.checkGrouping = .ok ()
  orderBy : match window? ending .orderBy found with
    | none => [] = criteria.orderBy
    | some (window, next) =>
      bindSortKeys schema type (orderKeys next none window.tokens) = .ok criteria.orderBy
  limit : Option.Rel (fun (window, _) count => rowCount .limit window.keyword window.tokens = .ok count)
    (window? ending .limit found) criteria.limit
  offset : Option.Rel
    (fun (window, _) count => rowCount .offset window.keyword window.tokens = .ok count)
    (window? ending .offset found) criteria.offset
  type : criteria.type = type
  properties : criteria.properties = (selected.filterMap (·.property?)).eraseDups
  aggregates : criteria.aggregates = selected.filterMap (·.aggregate?)
  isSubquery : criteria.isSubquery = isSubquery
  aliases : criteria.aliases = Aliases.ofPaths criteria.paths

theorem assemble_eq_ok_iff {schema : Schema} {read : RestrictionReader} :
    assemble schema read isSubquery ending type selected found = .ok criteria ↔
      Assembly schema read isSubquery ending type selected found criteria := by
  rw [assemble, bind_eq_ok]
  simp only [option_mapM_eq_ok, checked_eq_ok]
  -- What follows a list clause is the same whether the clause is there or not.
  cases group : window? ending .groupBy found <;> cases order : window? ending .orderBy found
  all_goals
    simp only [bind_eq_ok, pure_eq_ok, mapError_eq_ok, option_mapM_eq_ok]
    constructor
    · rintro ⟨restriction, restricted, groupBy, grouping, _, grouped, orderBy, ordering, limit, limited,
        offset, skipped, rfl⟩
      exact ⟨restricted, by simp [group, ← grouping, Criteria.withAliases], grouped,
        by simp [order, ← ordering, Criteria.withAliases], limited, skipped, rfl, rfl, rfl, rfl, rfl⟩
    · intro assembly
      obtain ⟨restricted, grouping, grouped, ordering, limited, skipped, rfl, properties, aggregates,
        rfl, aliases⟩ := assembly
      rw [group] at grouping
      rw [order] at ordering
      rw [← properties, ← aggregates]
      refine ⟨_, restricted, _, grouping, (), grouped, _, ordering, _, limited, _, skipped, ?_⟩
      change { criteria with aliases := Aliases.ofPaths criteria.paths } = criteria
      rw [← aliases]
      cases criteria
      rfl

/-- The tokens of a restriction, in the brackets that a clause spares. -/
def bracketed (window : Window) (next : Token) : List Token :=
  ⟨.opening, "(", window.keyword.position⟩ :: (window.tokens ++ [⟨.closing, ")", next.position⟩])

theorem readWhere_eq_ok_iff {read : RestrictionReader} {restriction : Restriction} :
    readWhere read window next = .ok restriction ↔
      window.tokens ≠ [] ∧ Yields (read next (bracketed window next)) restriction [] := by
  rw [readWhere, guard_eq_ok, bind_eq_ok]
  refine and_congr (by simp) ?_
  constructor
  · rintro ⟨⟨whole, rest, shorter⟩, yields, same⟩
    cases rest with
    | nil =>
      cases pure_eq_ok.mp same
      exact ⟨shorter, yields⟩
    | cons token rest => cases same
  · rintro ⟨shorter, yields⟩
    exact ⟨_, yields, rfl⟩

theorem written_bracketed (written : ∀ token ∈ window.tokens, token.kind.isWritten = true) (next : Token) :
    ∀ token ∈ bracketed window next, token.kind.isWritten = true := by
  intro token member
  simp only [bracketed, List.mem_cons, List.mem_append, List.not_mem_nil, or_false] at member
  rcases member with rfl | inside | rfl
  · rfl
  · exact written token inside
  · rfl

/-- What is read of a clause is what the grammar derives from its tokens in brackets. -/
theorem readWhere_eq_ok_iff_derives {compiler : Compiler} {restriction : Restriction}
    (written : ∀ token ∈ window.tokens, token.kind.isWritten = true) :
    readWhere (compiler.restriction depth) window next = .ok restriction ↔
      window.tokens ≠ [] ∧ compiler.Derives depth (bracketed window next) restriction := by
  rw [readWhere_eq_ok_iff, reads_restriction compiler depth next _ (written_bracketed written next)]
  refine and_congr_right fun _ => ?_
  constructor
  · rintro ⟨phrase, shape, derived⟩
    rw [List.append_nil] at shape
    rwa [shape]
  · intro derived
    exact ⟨_, (List.append_nil _).symm, derived⟩

end RecordQuery.Compiler
