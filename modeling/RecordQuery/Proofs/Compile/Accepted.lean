import RecordQuery.Proofs.Compile.Assembly
import RecordQuery.Proofs.Distinct
import RecordQuery.Proofs.Grammar.Keys
import RecordQuery.Proofs.Lexing.Run

namespace RecordQuery.Compiler

open Query

variable {compiler : Compiler} {type : RecordType} {restriction : Restriction}

/-- What is known of a restriction that was read with so many levels left. -/
structure Fits (compiler : Compiler) (depth : Nat) (type : RecordType) (phrase : List Token)
    (restriction : Restriction) : Prop where
  admitted : compiler.schema.Admits compiler.packages type restriction
  levels : restriction.levels ≤ depth
  /-- Brackets take a level that only a junction needs. -/
  bracketed : ∀ opening ∈ phrase.head?, opening.kind = .opening → restriction.isJunction = false →
    restriction.levels + 1 ≤ depth

/-- What is read of a clause is derived from its tokens in brackets. -/
theorem derives_of_readWhere (written : ∀ token ∈ window.tokens, token.kind.isWritten = true)
    (found : readWhere (compiler.restriction depth) window next = .ok restriction) :
    (∀ token ∈ bracketed window next, token.kind.isWritten = true) ∧
      compiler.Derives depth (bracketed window next) restriction :=
  ⟨written_bracketed written next, ((readWhere_eq_ok_iff_derives written).mp found).2⟩

/-- The restriction of a clause fits if all that the grammar derives does. -/
theorem fits_of_readWhere
    (fits : ∀ phrase, (∀ token ∈ phrase, token.kind.isWritten = true) →
      compiler.Derives depth phrase restriction → compiler.Fits depth type phrase restriction)
    (written : ∀ token ∈ window.tokens, token.kind.isWritten = true)
    (found : readWhere (compiler.restriction depth) window next = .ok restriction) :
    compiler.schema.Admits compiler.packages type restriction ∧
      (if restriction.isJunction then restriction.levels else restriction.levels + 1) ≤ depth := by
  obtain ⟨kinds, derived⟩ := derives_of_readWhere written found
  have fit := fits _ kinds derived
  refine ⟨fit.admitted, ?_⟩
  split
  · exact fit.levels
  · rename_i single
    exact fit.bracketed _ rfl rfl (by simpa using single)

/-- The entries of a select list that is bound are what a query selects. -/
theorem frames_select (listed : Listed ItemPhrase phrase items)
    (bound : bindSelect compiler.schema type none items = .ok selected) :
    (∀ path ∈ selected.filterMap (·.property?), compiler.schema.HasValue type path) ∧
      (∃ overCollection, ∀ call ∈ selected.filterMap (·.aggregate?),
        compiler.schema.HasAggregate type overCollection call) ∧
      (selected.filterMap (·.property?) ≠ [] ∨ selected.filterMap (·.aggregate?) ≠ []) := by
  obtain ⟨all, overCollection, -, kinds⟩ := bindSelect_eq_ok_iff.mp bound
  refine ⟨?_, ⟨overCollection, ?_⟩, ?_⟩
  · intro path member
    obtain ⟨entry, inside, selects⟩ := List.mem_filterMap.mp member
    obtain ⟨item, -, made⟩ := forall₂_mem_right all inside
    obtain ⟨_, route, -, walked, single, made⟩ := bindItem_eq_ok_iff.mp made
    cases item with
    | property token =>
      subst made
      cases selects
      exact ⟨route, walked, single⟩
    | wildcard token =>
      subst made
      cases selects
      exact ⟨route, walked, single⟩
    | aggregate function token =>
      obtain ⟨-, rfl⟩ := made
      cases selects
  · intro call member
    obtain ⟨entry, inside, calls⟩ := List.mem_filterMap.mp member
    obtain ⟨item, origin, made⟩ := forall₂_mem_right all inside
    obtain ⟨path, route, -, walked, single, made⟩ := bindItem_eq_ok_iff.mp made
    cases item with
    | property token =>
      subst made
      cases calls
    | wildcard token =>
      subst made
      cases calls
    | aggregate function token =>
      obtain ⟨checked, rfl⟩ := made
      cases calls
      exact ⟨ne_unnamed_of_listed listed origin, route, walked, single, checked, kinds _ _ inside⟩
  · cases all with
    | nil => cases listed
    | @cons _ entry _ _ _ _ =>
      cases entry with
      | property path => simp [Selected.property?]
      | aggregate call kind => simp [Selected.aggregate?]

theorem isRowCount_of_rel
    (related : Option.Rel (fun (window, _) count => rowCount kind window.keyword window.tokens = .ok count)
      (found : Option (Window × Token)) limit) : ∀ count ∈ limit, Schema.IsRowCount count := by
  intro count member
  cases related with
  | none => cases member
  | some counted =>
    cases member
    obtain ⟨_, -, -, -, bounds⟩ := rowCount_eq_ok_iff.mp counted
    exact bounds

theorem frames_of_assembly {read : RestrictionReader}
    (resolved : compiler.schema.resolve? compiler.packages name = some type)
    (listed : Listed ItemPhrase phrase items)
    (bound : bindSelect compiler.schema type none items = .ok selected)
    (assembly : Assembly compiler.schema read isSubquery ending type selected found criteria) :
    compiler.schema.Frames compiler.packages criteria := by
  obtain ⟨values, aggregates, selects⟩ := frames_select listed bound
  obtain ⟨-, groupBy, grouped, orderBy, limit, offset, rfl, properties, calls, -, aliases⟩ := assembly
  refine ⟨?_, ?_, ?_, ?_, ?_, grouped, ?_, ?_, ?_, isRowCount_of_rel limit, isRowCount_of_rel offset,
    aliases⟩
  · exact Schema.resolve?_of_typeNamed? (Schema.typeNamed?_of_resolve? resolved)
  · rw [properties, calls]
    exact selects.imp_left eraseDups_ne_nil
  · intro path member
    rw [properties, List.mem_eraseDups] at member
    exact values path member
  · rw [properties]
    exact nodup_eraseDups _
  · rw [calls]
    exact aggregates
  · intro path member
    split at groupBy
    · rw [← groupBy] at member
      cases member
    · obtain ⟨keys, -, same⟩ := bindGroupKeys_eq_ok_iff.mp groupBy
      rw [← same, List.mem_eraseDups] at member
      obtain ⟨token, listed, rfl⟩ := List.mem_map.mp member
      exact keys token listed
  · split at groupBy
    · rw [← groupBy]
      exact .nil
    · obtain ⟨-, -, same⟩ := bindGroupKeys_eq_ok_iff.mp groupBy
      rw [← same]
      exact nodup_eraseDups _
  · intro key member
    split at orderBy
    · rw [← orderBy] at member
      cases member
    · obtain ⟨keys, -, same⟩ := bindSortKeys_eq_ok_iff.mp orderBy
      rw [← same] at member
      obtain ⟨pair, listed, rfl⟩ := List.mem_map.mp member
      exact keys pair listed

theorem accepts_of_query
    (fits : ∀ type phrase restriction, (∀ token ∈ phrase, token.kind.isWritten = true) →
      compiler.Derives depth phrase restriction →
      checkRestriction compiler.schema type restriction = .ok () →
      compiler.Fits depth type phrase restriction)
    (notWord : ending.kind ≠ .word) (written : ∀ token ∈ tokens, token.kind.isWritten = true)
    (compiled : compiler.query (compiler.restriction depth) isSubquery ending tokens = .ok criteria) :
    compiler.schema.Accepts compiler.packages criteria ∧ criteria.isSubquery = isSubquery ∧
      criteria.levels ≤ depth := by
  obtain ⟨parts, assembled⟩ := (query_eq_ok_iff notWord).mp compiled
  have assembly := assemble_eq_ok_iff.mp assembled
  have own : ∀ window ∈ parts.found, ∀ token ∈ window.tokens, token.kind.isWritten = true := by
    intro window member token inside
    apply written
    rw [parts.shape]
    have clause := parts.split.mem_tokens member inside
    simp [clause]
  have restricted : ∀ restriction ∈ criteria.restriction,
      compiler.schema.Admits compiler.packages parts.type restriction ∧
        (if restriction.isJunction then restriction.levels else restriction.levels + 1) ≤ depth := by
    intro restriction given
    have related := assembly.restriction
    rw [given] at related
    generalize found : window? ending .where_ parts.found = window at related
    cases related with
    | some related =>
      obtain ⟨member, -⟩ := mem_of_window? found
      exact fits_of_readWhere (fun phrase kinds derived => fits _ _ _ kinds derived related.2)
        (own _ member) related.1
  have frames := frames_of_assembly parts.resolved parts.listed parts.bound assembly
  refine ⟨Schema.accepts_iff.mpr ⟨frames, ?_⟩, assembly.isSubquery, ?_⟩
  · intro restriction given
    rw [assembly.type]
    exact (restricted restriction given).1
  · cases given : criteria.restriction with
    | none =>
      rw [Criteria.levels_of_none given]
      exact Nat.zero_le _
    | some restriction =>
      rw [Criteria.levels_of_some given]
      exact (restricted restriction given).2

theorem not_bracketed {property : Token} (path : property.IsPath) :
    ∀ opening ∈ (property :: tokens).head?, opening.kind = .opening → restriction.isJunction = false →
      restriction.levels + 1 ≤ depth := by
  intro opening first opens
  cases first
  rw [path.1] at opens
  cases opens

/-- One level of the grammar, if what is nested in it fits. -/
theorem fits_of_phrase
    (fits : ∀ type phrase restriction, (∀ token ∈ phrase, token.kind.isWritten = true) →
      compiler.Derives depth phrase restriction →
      checkRestriction compiler.schema type restriction = .ok () →
      compiler.Fits depth type phrase restriction)
    (accepts : ∀ closing tokens query, closing.kind = .closing →
      (∀ token ∈ tokens, token.kind.isWritten = true) →
      compiler.subquery depth closing tokens = .ok query →
      compiler.schema.Accepts compiler.packages query ∧ query.isSubquery = true ∧
        query.levels + 1 ≤ depth)
    (written : ∀ token ∈ phrase, token.kind.isWritten = true)
    (derived : Phrase (compiler.Derives depth) (compiler.subquery depth) phrase restriction)
    (checked : checkRestriction compiler.schema type restriction = .ok ()) :
    compiler.Fits (depth + 1) type phrase restriction := by
  cases derived with
  | bracket opens inner closes =>
    have fit := fits type _ restriction (fun token member => written token (by simp [member])) inner checked
    exact ⟨fit.admitted, Nat.le_succ_of_le fit.levels, fun _ _ _ _ => Nat.succ_le_succ fit.levels⟩
  | @junction opening phrase first connective tokens second others closing opens inner more closes =>
    have children := checkRestriction_eq_ok_iff.mp checked
    have each : ∀ child ∈ first :: second :: others, ∃ phrase, compiler.Fits depth type phrase child := by
      intro child member
      rcases List.mem_cons.mp member with rfl | later
      · exact ⟨_, fits type _ _ (fun token inside => written token (by simp [inside])) inner
          (children _ member)⟩
      · obtain ⟨_, derived, inside⟩ := more.exists_of_mem later
        exact ⟨_, fits type _ _ (fun token within => written token (by simp [inside.subset within]))
          derived (children _ member)⟩
    refine ⟨⟨by simp, Schema.admitsAll_iff.mpr ?_⟩, ?_, ?_⟩
    · intro child member
      obtain ⟨_, fit⟩ := each child member
      exact fit.admitted
    · rw [Restriction.levels]
      apply Nat.succ_le_succ
      apply Restriction.levelsAll_le_iff.mpr
      intro child member
      obtain ⟨_, fit⟩ := each child member
      exact fit.levels
    · intro _ _ _ single
      cases single
  | @not token phrase child negates inner =>
    have fit := fits type _ child (fun token member => written token (by simp [member])) inner
      (checkRestriction_eq_ok_iff.mp checked)
    refine ⟨fit.admitted, Nat.succ_le_succ fit.levels, ?_⟩
    intro opening first opens
    cases first
    rcases negates.1 with word | operator <;> simp_all
  | comparison path compares operand =>
    exact ⟨checkRestriction_eq_ok_iff.mp checked, Nat.succ_le_succ (Nat.zero_le _),
      not_bracketed path⟩
  | isNull path tests =>
    exact ⟨checkRestriction_eq_ok_iff.mp checked, Nat.succ_le_succ (Nat.zero_le _),
      not_bracketed path⟩
  | inValues path tests opens plain listed closes =>
    exact ⟨⟨checkRestriction_eq_ok_iff.mp checked, listed.ne_nil⟩, Nat.succ_le_succ (Nat.zero_le _),
      not_bracketed path⟩
  | inQuery path tests opens selects compiled closes =>
    obtain ⟨accepted, nested, levels⟩ := accepts _ _ _ closes
      (fun token member => written token (by simp at member ⊢; tauto)) compiled
    refine ⟨⟨checkRestriction_eq_ok_iff.mp checked, nested, accepted⟩, ?_, not_bracketed path⟩
    rw [Restriction.levels]
    exact Nat.succ_le_succ levels

/-- What the grammar derives makes sense if its properties do, and so do the subqueries in it. -/
theorem fits_of_derives (compiler : Compiler) (depth : Nat) :
    (∀ type phrase restriction, (∀ token ∈ phrase, token.kind.isWritten = true) →
      compiler.Derives depth phrase restriction →
      checkRestriction compiler.schema type restriction = .ok () →
      compiler.Fits depth type phrase restriction) ∧
    (∀ closing tokens query, closing.kind = .closing →
      (∀ token ∈ tokens, token.kind.isWritten = true) →
      compiler.subquery depth closing tokens = .ok query →
      compiler.schema.Accepts compiler.packages query ∧ query.isSubquery = true ∧
        query.levels + 1 ≤ depth) := by
  induction depth with
  | zero =>
    constructor
    · intro _ _ _ _ derived
      exact derived.elim
    · intro _ _ _ _ _ compiled
      cases compiled
  | succ depth ih =>
    obtain ⟨fits, accepts⟩ := ih
    constructor
    · intro type phrase restriction written derived checked
      exact fits_of_phrase fits accepts written derived checked
    · intro closing tokens query closes written compiled
      obtain ⟨accepted, nested, levels⟩ := accepts_of_query fits (by simp [closes]) written compiled
      exact ⟨accepted, nested, Nat.succ_le_succ levels⟩

/-- Compiling is reading the tokens of the text. -/
theorem compile_eq_ok_iff : compiler.compile text = .ok criteria ↔
    ∃ tokens ending, (Lexer.start text compiler.operators).run = .ok (tokens, ending) ∧
      compiler.query (compiler.restriction compiler.maxDepth) false ending tokens = .ok criteria := by
  simp only [compile, bind_eq_ok, mapError_eq_ok, Prod.exists]

theorem accepts_of_compile (compiled : compiler.compile text = .ok criteria) :
    compiler.schema.Accepts compiler.packages criteria ∧ criteria.isSubquery = false ∧
      criteria.levels ≤ compiler.maxDepth := by
  obtain ⟨tokens, ending, ran, compiled⟩ := compile_eq_ok_iff.mp compiled
  obtain ⟨traced, finished⟩ := Lexer.run_traced ran
  exact accepts_of_query (fits_of_derives compiler compiler.maxDepth).1 (by simp [finished])
    traced.written compiled

end RecordQuery.Compiler
