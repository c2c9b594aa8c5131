import RecordQuery.Proofs.Lexing.Utf8
import RecordQuery.Proofs.Print.Compiled

/-! What a compiled query has from its text. The values that it compares with are values of tokens, and
every operator in the text means something; so the values of a valid text are valid. -/
namespace RecordQuery

open Query

mutual

/-- The values of a restriction, those of its subqueries included. -/
def Restriction.values : Restriction → List Value
  | .missing | .isNull _ => []
  | .comparison _ _ value => [value]
  | .inValues _ values => values
  | .inQuery _ query => query.values
  | .junction _ children => Restriction.valuesAll children
  | .not child => child.values

def Restriction.valuesAll : List Restriction → List Value
  | [] => []
  | child :: children => child.values ++ Restriction.valuesAll children

def Criteria.values : Criteria → List Value
  | ⟨_, _, _, none, _, _, _, _, _, _⟩ => []
  | ⟨_, _, _, some restriction, _, _, _, _, _, _⟩ => restriction.values

end

theorem Criteria.mem_values_iff {criteria : Criteria} :
    value ∈ criteria.values ↔ ∃ restriction ∈ criteria.restriction, value ∈ restriction.values := by
  obtain ⟨_, _, _, restriction, _, _, _, _, _, _⟩ := criteria
  cases restriction <;> simp [values]

namespace Query

theorem ItemPhrase.ne_operator (entry : ItemPhrase phrase item) :
    ∀ token ∈ phrase, token.kind ≠ .operator := by
  cases entry with
  | word kind _ => simp [kind]
  | call kind _ _ opens word closes => simp [kind, opens, word, closes]

theorem ne_operator_of_listed (listed : Listed ItemPhrase phrase items) :
    ∀ token ∈ phrase, token.kind ≠ .operator := by
  intro token member
  rcases listed.comma_or_entry member with separator | ⟨own, item, entry, inside⟩
  · simp [separator]
  · exact entry.ne_operator token inside

/-- An operator in the clauses stands within one of them. -/
theorem Windows.exists_of_operator (windows : Windows seen tokens found) (member : token ∈ tokens)
    (kind : token.kind = .operator) : ∃ window ∈ found, token ∈ window.tokens := by
  induction windows with
  | nil => cases member
  | @cons seen keyword opened own after later opens ordered unbroken more ih =>
    obtain ⟨word, -, second, -⟩ := windowAt_eq_some opens
    simp only [List.mem_cons, List.mem_append, Option.mem_toList] at member
    rcases member with rfl | by_ | inside | behind
    · cases word.symm.trans kind
    · cases (second token by_).symm.trans kind
    · exact ⟨_, .head _, inside⟩
    · obtain ⟨window, among, inside⟩ := ih behind
      exact ⟨window, .tail _ among, inside⟩

end Query

namespace Compiler

variable {compiler : Compiler} {depth : Nat} {criteria : Criteria} {tokens : List Token}

/-- The operators among the tokens mean something, and the values are values of tokens. -/
structure Drawn (tokens : List Token) (values : List Value) : Prop where
  operators : ∀ token ∈ tokens, token.kind = .operator → ∃ operator, token.Spells operator
  values : ∀ value ∈ values, ∃ token ∈ tokens, token.IsListValue ∧ .text token.value = value

namespace Drawn

variable {more : List Token} {values others : List Value} {token : Token}

theorem nil : Drawn [] [] := ⟨by simp, by simp⟩

theorem cons (drawn : Drawn tokens values)
    (spelled : token.kind = .operator → ∃ operator, token.Spells operator) :
    Drawn (token :: tokens) values := by
  refine ⟨List.forall_mem_cons.mpr ⟨spelled, drawn.operators⟩, ?_⟩
  intro value member
  obtain ⟨source, among, found⟩ := drawn.values value member
  exact ⟨source, .tail _ among, found⟩

theorem append (drawn : Drawn tokens values) (rest : Drawn more others) :
    Drawn (tokens ++ more) (values ++ others) := by
  refine ⟨List.forall_mem_append.mpr ⟨drawn.operators, rest.operators⟩, ?_⟩
  intro value member
  rcases List.mem_append.mp member with here | later
  · obtain ⟨source, among, found⟩ := drawn.values value here
    exact ⟨source, List.mem_append_left _ among, found⟩
  · obtain ⟨source, among, found⟩ := rest.values value later
    exact ⟨source, List.mem_append_right _ among, found⟩

theorem close (drawn : Drawn tokens values) (closes : token.kind = .closing) :
    Drawn (tokens ++ [token]) values := by
  have closed : Drawn [token] [] := nil.cons fun operator => by cases closes.symm.trans operator
  simpa using drawn.append closed

/-- A token that is a value. -/
theorem singleton (kind : token.IsListValue) : Drawn [token] [.text token.value] := by
  refine ⟨List.forall_mem_singleton.mpr ?_, List.forall_mem_singleton.mpr ⟨token, .head _, kind, rfl⟩⟩
  intro operator
  rcases kind with kind | kind <;> cases kind.symm.trans operator

end Drawn

theorem drawn_of_listPhrase (listed : ListPhrase tokens values) : Drawn tokens values := by
  induction listed with
  | one kind => exact .singleton kind
  | cons kind separator more ih =>
    refine Drawn.append (.singleton kind) (ih.cons ?_)
    intro operator
    cases separator.symm.trans operator

/-- Whatever the grammar derives is drawn from its tokens. -/
def DrawsDerived (compiler : Compiler) (depth : Nat) : Prop :=
  ∀ phrase restriction, (∀ token ∈ phrase, token.kind.isWritten = true) →
    compiler.Derives depth phrase restriction → Drawn phrase restriction.values

def DrawsSubqueries (compiler : Compiler) (depth : Nat) : Prop :=
  ∀ closing tokens query, closing.kind = .closing → (∀ token ∈ tokens, token.kind.isWritten = true) →
    compiler.subquery depth closing tokens = .ok query → Drawn tokens query.values

theorem drawn_of_readWhere {restriction : Restriction} (draws : compiler.DrawsDerived depth)
    (written : ∀ token ∈ window.tokens, token.kind.isWritten = true)
    (found : readWhere (compiler.restriction depth) window next = .ok restriction) :
    Drawn window.tokens restriction.values := by
  obtain ⟨kinds, derived⟩ := derives_of_readWhere written found
  obtain ⟨operators, values⟩ := draws _ _ kinds derived
  refine ⟨?_, ?_⟩
  · intro token inside
    exact operators token (by simp [bracketed, inside])
  · intro value member
    obtain ⟨token, among, kind, same⟩ := values value member
    refine ⟨token, ?_, kind, same⟩
    simp only [bracketed, List.mem_cons, List.mem_append, List.not_mem_nil, or_false] at among
    rcases among with rfl | inside | rfl
    · rcases kind with kind | kind <;> cases kind
    · exact inside
    · rcases kind with kind | kind <;> cases kind

/-- Clauses other than the restriction have no operators. -/
theorem ne_operator_of_assembly {read : RestrictionReader} {type : RecordType}
    (assembly : Assembly compiler.schema read isSubquery ending type selected found criteria)
    (windows : Windows [] clauses found) (member : window ∈ found) (other : window.clause ≠ .where_) :
    ∀ token ∈ window.tokens, token.kind ≠ .operator := by
  obtain ⟨next, located⟩ := windows.window? member ending
  have plain : (∀ token ∈ window.tokens, token.kind = .word ∨ token.kind = .comma) →
      ∀ token ∈ window.tokens, token.kind ≠ .operator := by
    intro kinds token inside
    rcases kinds token inside with kind | kind <;> simp [kind]
  have counted : ∀ {kind n}, rowCount kind window.keyword window.tokens = .ok n →
      ∀ token ∈ window.tokens, token.kind ≠ .operator := by
    intro kind n count
    obtain ⟨token, only, word, -⟩ := rowCount_eq_ok_iff.mp count
    simp [only, word]
  cases clause : window.clause with
  | where_ => exact absurd clause other
  | groupBy =>
    have keys := assembly.groupBy
    rw [← clause, located] at keys
    obtain ⟨-, unfailed, -⟩ := bindGroupKeys_eq_ok_iff.mp keys
    exact plain (takesKeys_groupKeys unfailed).plain
  | orderBy =>
    have keys := assembly.orderBy
    rw [← clause, located] at keys
    obtain ⟨-, unfailed, -⟩ := bindSortKeys_eq_ok_iff.mp keys
    exact plain (takesKeys_orderKeys unfailed).plain
  | limit =>
    have limit := assembly.limit
    rw [← clause, located] at limit
    obtain ⟨_, -, count⟩ := option_rel_some limit
    exact counted count
  | offset =>
    have offset := assembly.offset
    rw [← clause, located] at offset
    obtain ⟨_, -, count⟩ := option_rel_some offset
    exact counted count

theorem drawn_of_query (draws : compiler.DrawsDerived depth) (notWord : ending.kind ≠ .word)
    (written : ∀ token ∈ tokens, token.kind.isWritten = true)
    (compiled : compiler.query (compiler.restriction depth) isSubquery ending tokens = .ok criteria) :
    Drawn tokens criteria.values := by
  obtain ⟨parts, assembled⟩ := (query_eq_ok_iff notWord).mp compiled
  have assembly := assemble_eq_ok_iff.mp assembled
  have clauses : ∀ {token : Token}, token ∈ parts.clauses → token ∈ tokens :=
    fun member => parts.clauses_within.subset member
  have restricted : ∀ {window next restriction}, window? ending .where_ parts.found = some (window, next) →
      readWhere (compiler.restriction depth) window next = .ok restriction →
      Drawn window.tokens restriction.values := by
    intro window next restriction located read
    obtain ⟨member, -⟩ := mem_of_window? located
    refine drawn_of_readWhere draws ?_ read
    intro token inside
    exact written token (clauses (parts.split.mem_tokens member inside))
  constructor
  · intro token member kind
    have operator : token ∈ parts.clauses := by
      rw [parts.shape] at member
      simp only [List.mem_cons, List.mem_append] at member
      rcases member with rfl | listed | rfl | rfl | inside
      · cases (Token.kind_of_isKeyword parts.selects).symm.trans kind
      · exact absurd kind (ne_operator_of_listed parts.listed token listed)
      · cases (Token.kind_of_isKeyword parts.separates).symm.trans kind
      · cases parts.word.symm.trans kind
      · exact inside
    obtain ⟨window, among, inside⟩ := parts.split.exists_of_operator operator kind
    by_cases clause : window.clause = .where_
    · obtain ⟨next, located⟩ := parts.split.window? among ending
      rw [clause] at located
      have related := assembly.restriction
      rw [located] at related
      obtain ⟨_, -, read, -⟩ := option_rel_some related
      exact (restricted located read).operators token inside kind
    · exact absurd kind (ne_operator_of_assembly assembly parts.split among clause token inside)
  · intro value member
    obtain ⟨restriction, given, among⟩ := Criteria.mem_values_iff.mp member
    have related := assembly.restriction
    rw [Option.mem_def.mp given] at related
    generalize located : window? ending .where_ parts.found = found at related
    cases related with
    | @some pair _ related =>
      obtain ⟨token, inside, kind, same⟩ := (restricted located related.1).values value among
      obtain ⟨window, -⟩ := mem_of_window? located
      exact ⟨token, clauses (parts.split.mem_tokens window inside), kind, same⟩

theorem drawn_of_chain (draws : compiler.DrawsDerived depth)
    (written : ∀ token ∈ tokens, token.kind.isWritten = true)
    (chain : ChainPhrase (compiler.Derives depth) connective tokens restrictions) :
    Drawn tokens (Restriction.valuesAll restrictions) := by
  induction chain with
  | nil => exact .nil
  | @cons token phrase tokens restriction restrictions joint next more ih =>
    simp only [List.mem_cons, List.mem_append] at written
    have first := draws phrase restriction (fun token inside => written token (.inr (.inl inside))) next
    have rest := ih fun token inside => written token (.inr (.inr inside))
    exact (first.append rest).cons fun _ => ⟨_, joint⟩

/-- One level of the grammar, if what is nested in it is drawn from its tokens. -/
theorem drawsDerived_succ (draws : compiler.DrawsDerived depth) (queries : compiler.DrawsSubqueries depth) :
    compiler.DrawsDerived (depth + 1) := by
  intro phrase restriction written derived
  have mark : ∀ {token : Token} {kind : TokenKind}, token.kind = kind → kind ≠ .operator →
      token.kind = .operator → ∃ operator, token.Spells operator := by
    intro token kind same other operator
    exact absurd (same.symm.trans operator) other
  cases derived with
  | @bracket opening phrase _ closing opens inner closes =>
    have within := draws phrase restriction (fun token inside => written token (by simp [inside])) inner
    exact (within.close closes).cons (mark opens (by decide))
  | @junction opening phrase first connective tokens second others closing opens inner more closes =>
    have head := draws phrase first (fun token inside => written token (by simp [inside])) inner
    have tail := drawn_of_chain draws (fun token inside => written token (by simp [inside])) more
    exact (head.append (tail.close closes)).cons (mark opens (by decide))
  | @not token phrase child negates inner =>
    have within := draws phrase child (fun token inside => written token (by simp [inside])) inner
    exact within.cons fun _ => ⟨_, negates⟩
  | @comparison property token comparator value path compares operand =>
    have isValue : value.IsListValue := by
      rcases operand with string | path
      · exact .inr string
      · exact .inl path.1
    exact ((Drawn.singleton isValue).cons fun _ => ⟨_, compares⟩).cons (mark path.1 (by decide))
  | @isNull property token path tests =>
    exact (Drawn.nil.cons fun _ => ⟨_, tests⟩).cons (mark path.1 (by decide))
  | @inValues property token opening first tokens values closing path tests opens plain listed closes =>
    have within := (drawn_of_listPhrase listed).close closes
    exact ((within.cons (mark opens (by decide))).cons fun _ => ⟨_, tests⟩).cons (mark path.1 (by decide))
  | @inQuery property token opening first closing tokens query path tests opens selects compiled closes =>
    have nested := queries closing (first :: tokens) query closes
      (fun token inside => written token (by simp at inside ⊢; tauto)) compiled
    exact (((nested.close closes).cons (mark opens (by decide))).cons fun _ => ⟨_, tests⟩).cons
      (mark path.1 (by decide))

theorem drawsDerived (compiler : Compiler) (depth : Nat) :
    compiler.DrawsDerived depth ∧ compiler.DrawsSubqueries depth := by
  induction depth with
  | zero =>
    constructor
    · intro _ _ _ derived
      exact derived.elim
    · intro _ _ _ _ _ compiled
      cases compiled
  | succ depth ih =>
    obtain ⟨draws, queries⟩ := ih
    refine ⟨drawsDerived_succ draws queries, ?_⟩
    intro closing tokens query closes written compiled
    exact drawn_of_query draws (by simp [closes]) written compiled

/-- The values of a query that is compiled from a valid text are valid texts. -/
theorem isUtf8_of_compile (compiled : compiler.compile text = .ok criteria) (valid : text.isUtf8 = true) :
    ∀ value ∈ criteria.values, ∃ t, value = .text t ∧ t.isUtf8 = true := by
  obtain ⟨tokens, ending, ran, compiled⟩ := compile_eq_ok_iff.mp compiled
  obtain ⟨traced, finished⟩ := Lexer.run_traced ran
  have drawn := drawn_of_query (drawsDerived compiler compiler.maxDepth).1 (by simp [finished])
    traced.written compiled
  have tokensValid := Lexer.run_isUtf8 ran valid fun token member kind => by
    obtain ⟨operator, spelled⟩ := drawn.operators token member kind
    exact Text.isUtf8_of_ofSymbol? spelled.2
  intro value member
  obtain ⟨token, inside, kind, rfl⟩ := drawn.values value member
  obtain ⟨_, origin⟩ := traced.origin inside
  exact ⟨_, rfl, origin.isUtf8_value kind (tokensValid token inside)⟩

end Compiler
end RecordQuery
