import RecordQuery.Proofs.Compile.Layout
import RecordQuery.Proofs.Grammar.ClauseOrder
import RecordQuery.Proofs.Grammar.Enclosed

/-! Which errors a query can end in. Almost all of them are about one token of the query or about its end;
the others are about tokens that the reader makes up: brackets around the restriction of a window, and the
identity that stands for the records that are counted. -/
namespace RecordQuery

/-- Whether the cause is that brackets do not match. -/
def Cause.isMismatch : Cause → Bool
  | .unmatchedBracket | .unclosedBrackets => true
  | _ => false

namespace Query

/-- Where a window can end: at the end of the query or subquery, or where the next clause opens. -/
def IsBoundary (token : Token) : Prop :=
  token.kind = .eof ∨ token.kind = .closing ∨ (loneClause? token).isSome = true ∨ (byClause? token).isSome = true

end Query

open Query

/-- The errors of a query, given its tokens and its end; brackets of clauses that do not match are apart. -/
inductive Raised (known : Token → Prop) : QueryError → Prop where
  | schema {error : SchemaError} : Raised known (.schema error)
  | token {token : Token} {cause : Cause} (is : known token) (matched : cause.isMismatch = false) :
      Raised known (.atToken token cause)
  /-- Where the paths of a restriction stand is not kept. -/
  | unplaced {path : Text} : Raised known (.atToken ⟨.word, path, none⟩ (.wholeRelationship path))
  /-- Counting the wildcard is counting identities. -/
  | counted {token : Token} {cause : Cause} (is : known token) (word : token.kind = .word)
      (wild : token.text = wildcardText) (cause_ : cause = .mixedAggregates ∨ cause = .wholeRelationship "id") :
      Raised known (.atToken { token with text := "id" } cause)
  /-- The bracket before a window. -/
  | opened {keyword : Token} {limit : Nat} (is : known keyword) (where_ : keyword.isKeyword "WHERE" = true) :
      Raised known (.atToken ⟨.opening, "(", keyword.position⟩ (.tooDeep limit))
  /-- The bracket behind a window. -/
  | closed {next : Token} {cause : Cause} (is : known next) (ends : IsBoundary next)
      (cause_ : cause = .emptyRestriction ∨ ∃ limit, cause = .tooDeep limit) :
      Raised known (.atToken ⟨.closing, ")", next.position⟩ cause)

theorem Raised.isMismatch_cause {known : Token → Prop} {failure : QueryError} {error : SyntaxError}
    (raised : Raised known failure) (same : failure = .malformed error) : error.cause.isMismatch = false := by
  cases raised with
  | schema => cases same
  | token is matched =>
    cases same
    exact matched
  | unplaced =>
    cases same
    rfl
  | counted is word wild cause_ =>
    cases same
    rcases cause_ with rfl | rfl <;> rfl
  | opened is where_ =>
    cases same
    rfl
  | closed is ends cause_ =>
    cases same
    rcases cause_ with rfl | ⟨_, rfl⟩ <;> rfl

section Fails

variable {ε α β : Type} {allowed : ε → Prop}

/-- What it fails with. -/
def failure? : Except ε α → Option ε
  | .error error => some error
  | .ok _ => none

theorem failure?_eq_some {outcome : Except ε α} : failure? outcome = some error ↔ outcome = .error error := by
  cases outcome <;> simp [failure?]

/-- If it fails, then with an error that is allowed. -/
def Fails (allowed : ε → Prop) (outcome : Except ε α) : Prop := ∀ error, outcome = .error error → allowed error

namespace Fails

theorem ok (value : α) : Fails allowed (.ok value) := by
  intro error failed
  cases failed

theorem error {error : ε} (is : allowed error) : Fails allowed (.error error : Except ε α) := by
  intro other failed
  cases failed
  exact is

theorem mono {wider : ε → Prop} {outcome : Except ε α} (fails : Fails allowed outcome)
    (more : ∀ error, allowed error → wider error) : Fails wider outcome :=
  fun error failed => more error (fails error failed)

theorem bind {step : Except ε α} {next : α → Except ε β} (first : Fails allowed step)
    (second : ∀ value, step = .ok value → Fails allowed (next value)) : Fails allowed (step >>= next) := by
  cases step with
  | error error => exact .error (first error rfl)
  | ok value => exact second value rfl

theorem map {step : Except ε α} (first : Fails allowed step) (change : α → β) : Fails allowed (step.map change) := by
  cases step with
  | error error => exact .error (first error rfl)
  | ok value => exact .ok _

/-- A step that only checks. -/
theorem guard {wrong : Prop} [Decidable wrong] {error : ε} {skipped : α → Except ε β} {next : Except ε β}
    (refused : wrong → allowed error) (passed : ¬ wrong → Fails allowed next) :
    Fails allowed (if wrong then throw error >>= skipped else next) := by
  split
  · rename_i holds
    exact .error (refused holds)
  · rename_i holds
    exact passed holds

theorem option_mapM {step : α → Except ε β} {value : Option α} (each : ∀ given ∈ value, Fails allowed (step given)) :
    Fails allowed (value.mapM step) := by
  cases value with
  | none => exact .ok none
  | some given =>
    rw [Option.mapM_some, map_eq_pure_bind]
    exact (each given rfl).bind fun result _ => .ok (some result)

theorem option_elim {default : β} {step : α → Except ε β} {value : Option α}
    (each : ∀ given ∈ value, Fails allowed (step given)) : Fails allowed (value.elim (pure default) step) := by
  cases value with
  | none => exact .ok default
  | some given => exact each given rfl

theorem list_forM {check : α → Except ε Unit} {values : List α} (each : ∀ value ∈ values, Fails allowed (check value)) :
    Fails allowed (values.forM check) := by
  induction values with
  | nil => exact .ok ()
  | cons value values ih =>
    rw [List.forM_eq_forM, List.forM_cons, ← List.forM_eq_forM]
    exact (each value (.head _)).bind fun _ _ => ih fun other member => each other (.tail _ member)

end Fails

theorem fails_schema {known : Token → Prop} (outcome : Except SchemaError α) :
    Fails (Raised known) (outcome.mapError .schema) := by
  cases outcome with
  | error error => exact .error .schema
  | ok value => exact .ok value

theorem fails_at {known : Token → Prop} {token : Token} {cause : Cause} (is : known token)
    (matched : cause.isMismatch = false) : Fails (Raised known) (.error (.atToken token cause) : Except QueryError α) :=
  .error (.token is matched)

end Fails

namespace Query

variable {known : Token → Prop} {ending : Token} {tokens : List Token}

section Select

theorem fails_selectList (all : ∀ token ∈ tokens, known token) (last : known ending) (place : SelectPlace) :
    Fails (Raised known) (selectList ending place tokens) := by
  -- A call takes four tokens at once, so the induction is on how many are left.
  induction size : tokens.length using Nat.strongRecOn generalizing place tokens with
  | ind size ih =>
    subst size
    cases tokens with
    | nil => exact fails_at last rfl
    | cons token rest =>
      have is := all token (.head _)
      have later : ∀ token ∈ rest, known token := fun token member => all token (.tail _ member)
      rw [selectList.eq_def]
      dsimp only
      split
      · cases place with
        | first => exact fails_at is rfl
        | afterComma => exact fails_at is rfl
        | afterItem => exact .ok _
      split
      · split
        · exact ih _ (Nat.lt_succ_self _) later _ rfl
        · exact fails_at is rfl
      split
      · exact fails_at is rfl
      split
      · exact fails_at is rfl
      split
      · exact fails_at is rfl
      split
      · rename_i opening argument closing after called
        have shorter : after.length < (token :: opening :: argument :: closing :: after).length := by
          simp only [List.length_cons]
          omega
        simp only [List.forall_mem_cons] at later
        split
        · exact fails_at later.2.1 rfl
        split
        · exact fails_at later.2.2.1 rfl
        exact (ih _ shorter later.2.2.2 _ rfl).bind fun _ _ => .ok _
      · simp only [List.forall_mem_cons] at later
        split
        · exact fails_at later.2.1 rfl
        · exact fails_at last rfl
      · exact fails_at last rfl
      · exact (ih _ (Nat.lt_succ_self _) later _ rfl).bind fun _ _ => .ok _

/-- The entry has a token of the query, or counts the wildcard that is one. -/
def SelectItem.Known (known : Token → Prop) (item : SelectItem) : Prop :=
  known item.token ∨ ∃ token, known token ∧ token.kind = .word ∧ token.text = wildcardText ∧
    item = .aggregate .count { token with text := "id" }

theorem ItemPhrase.known_item (entry : ItemPhrase phrase item) (all : ∀ token ∈ phrase, known token) :
    item.Known known := by
  cases entry with
  | @word token kind plain =>
    refine .inl ?_
    rw [SelectItem.ofWord]
    split <;> exact all token (.head _)
  | @call name opening argument closing function kind plain named opens word closes =>
    have is := all argument (by simp)
    rw [SelectItem.ofCall]
    split
    · rename_i counts
      obtain ⟨rfl, wild⟩ := counts
      exact .inr ⟨argument, is, word, wild, rfl⟩
    · exact .inl is

theorem known_items (listed : Listed ItemPhrase phrase items) (all : ∀ token ∈ phrase, known token) :
    ∀ item ∈ items, item.Known known := by
  intro item member
  obtain ⟨own, entry, inside⟩ := listed.exists_of_mem member
  exact entry.known_item fun token among => all token (inside token among)

variable {schema : Schema} {type : RecordType} {item : SelectItem}

theorem fails_bindItem (is : item.Known known) : Fails (Raised known) (bindItem schema type item) := by
  rw [bindItem]
  have paths : Fails (Raised known) (item.path type) := by
    cases item with
    | property token => exact .ok _
    | aggregate function token => exact .ok _
    | wildcard token =>
      rw [SelectItem.path]
      split
      · exact .error .schema
      · exact .ok _
  refine paths.bind fun path found => (fails_schema _).bind fun route _ => ?_
  have refused : Raised known (.atToken item.token (.wholeRelationship path)) := by
    rcases is with is | ⟨token, is, word, wild, rfl⟩
    · exact .token is rfl
    · cases found
      exact .counted is word wild (.inr rfl)
  cases item with
  | property token => exact .guard (fun _ => refused) fun _ => .ok _
  | wildcard token => exact .guard (fun _ => refused) fun _ => .ok _
  | aggregate function token => exact .guard (fun _ => refused) fun _ => (fails_schema _).bind fun _ _ => .ok _

theorem fails_checkMixing (is : item.Known known) (seen : Option Bool) (selected : Selected) :
    Fails (Raised known) (checkMixing seen item selected) := by
  cases selected with
  | property path => exact .ok _
  | aggregate call overCollection =>
    rw [checkMixing]
    split
    · rcases is with is | ⟨token, is, word, wild, rfl⟩
      · exact fails_at is rfl
      · exact .error (.counted is word wild (.inl rfl))
    · exact .ok _

theorem fails_bindSelect (all : ∀ item ∈ items, SelectItem.Known known item) (seen : Option Bool) :
    Fails (Raised known) (bindSelect schema type seen items) := by
  induction items generalizing seen with
  | nil => exact .ok _
  | cons item items ih =>
    obtain ⟨is, all⟩ := List.forall_mem_cons.mp all
    rw [bindSelect]
    refine (fails_bindItem is).bind fun selected _ => (fails_checkMixing is seen selected).bind fun seen _ => ?_
    exact (ih all seen).bind fun _ _ => .ok _

end Select

section Windows

/-- An error about a token of the query; brackets that match are no cause of it. -/
def Scanned (known : Token → Prop) (balanced : Prop) (error : QueryError) : Prop :=
  ∃ token cause, known token ∧ error = .atToken token cause ∧ (balanced → cause.isMismatch = false)

theorem Scanned.at {balanced : Prop} {token : Token} {cause : Cause} (is : known token)
    (matched : balanced → cause.isMismatch = false) :
    Fails (Scanned known balanced) (.error (.atToken token cause) : Except QueryError α) :=
  .error ⟨token, cause, is, rfl, matched⟩

theorem Scanned.mono {narrow wide : Prop} (scanned : Scanned known narrow error) (implies : wide → narrow) :
    Scanned known wide error := by
  obtain ⟨token, cause, is, same, matched⟩ := scanned
  exact ⟨token, cause, is, same, fun holds => matched (implies holds)⟩

theorem fails_windowAt {balanced : Prop} (is : known token) (rest : List Token) :
    Fails (Scanned known balanced) (windowAt token rest) := by
  unfold windowAt
  split
  · exact .ok _
  · split
    · exact Scanned.at is fun _ => rfl
    · exact .ok _
    · exact .ok _

theorem fails_checkOrder {balanced : Prop} {opened : Window} (is : known opened.keyword) (seen : List Clause) :
    Fails (Scanned known balanced) (checkOrder seen opened) := by
  unfold checkOrder
  split
  · exact Scanned.at is fun _ => rfl
  split
  · exact Scanned.at is fun _ => rfl
  · exact .ok _

theorem fails_windowsFrom (all : ∀ token ∈ tokens, known token) (last : known ending) (seen : List Clause)
    (depth : Nat) : Fails (Scanned known (Balanced depth tokens)) (windowsFrom ending seen depth tokens) := by
  -- A keyword of two words takes two tokens, so the induction is on how many are left.
  induction size : tokens.length using Nat.strongRecOn generalizing seen depth tokens with
  | ind size ih =>
    subst size
    cases tokens with
    | nil =>
      rw [windowsFrom]
      split
      · exact .ok _
      · rename_i open_
        exact Scanned.at last fun balanced => absurd balanced open_
    | cons token rest =>
      obtain ⟨is, later⟩ := List.forall_mem_cons.mp all
      by_cases stray : token.kind = .closing ∧ depth = 0
      · rw [windowsFrom]
        simp only [stray.1, stray.2, reduceCtorEq, ↓reduceIte]
        exact Scanned.at is fun balanced => absurd ⟨stray.1, rfl⟩ balanced.1
      by_cases quiet : depth = 0 → windowAt token rest = .ok none
      · rw [windowsFrom_keep stray quiet]
        have kept := ih _ (Nat.lt_succ_self _) later seen (openAfter token depth) rfl
        exact (kept.mono fun error scanned => scanned.mono fun balanced => balanced.2).map _
      obtain ⟨rfl, loud⟩ := Classical.not_imp.mp quiet
      cases found : windowAt token rest with
      | error error =>
        rw [windowsFrom_refused found]
        exact .error (fails_windowAt is rest error found)
      | ok opened =>
        cases opened with
        | none => exact absurd found loud
        | some opened =>
          obtain ⟨word, same, second, after, rfl⟩ := windowAt_eq_some found
          rw [windowsFrom_open found]
          have keyword : known opened.keyword := same ▸ is
          refine (fails_checkOrder keyword seen).bind fun _ _ => ?_
          have shorter : after.length < (token :: (opened.second.toList ++ after)).length := by
            simp only [List.length_cons, List.length_append]
            omega
          have inside := ih _ shorter (fun token member => later token (List.mem_append_right _ member))
            (opened.clause :: seen) 0 rfl
          refine (inside.mono fun error scanned => scanned.mono ?_).bind fun _ _ => .ok _
          exact (opened_iff found).1.mp

theorem fails_windows (all : ∀ token ∈ tokens, known token) (last : known ending) :
    Fails (Scanned known (Balanced 0 tokens)) (windows ending tokens) := by
  cases tokens with
  | nil => exact .ok _
  | cons token rest =>
    obtain ⟨is, later⟩ := List.forall_mem_cons.mp all
    rw [windows]
    refine (fails_windowAt is rest).bind fun opened found => ?_
    cases opened with
    | none => exact Scanned.at is fun _ => rfl
    | some opened =>
      obtain ⟨word, same, second, after, rfl⟩ := windowAt_eq_some found
      have inside := fails_windowsFrom (fun token member => later token (List.mem_append_right _ member)) last
        [opened.clause] 0
      simp only [List.drop_left]
      refine (inside.mono fun error scanned => scanned.mono ?_).bind fun _ _ => .ok _
      exact (opened_iff found).1.mp

end Windows

section Keys

/-- The keys are tokens of the query, and what the list fails at is one. -/
structure Keys.Known (known : Token → Prop) (token : α → Token) (read : Keys α) : Prop where
  each : ∀ key ∈ read.keys, known (token key)
  stopped : ∀ error ∈ read.failure, Raised known error

theorem Keys.Known.done {token : α → Token} : Keys.Known known token (Keys.done : Keys α) := by
  constructor <;> simp [Keys.done]

theorem Keys.Known.stop {token : α → Token} {stopped : Token} {cause : Cause} (is : known stopped)
    (matched : cause.isMismatch = false) : Keys.Known known token (Keys.stop stopped cause : Keys α) := by
  constructor
  · simp [Keys.stop]
  · rintro error ⟨⟩
    exact .token is matched

theorem Keys.Known.cons {token : α → Token} {keys : Keys α} (listed : keys.Known known token)
    (is : known (token key)) : Keys.Known known token (Keys.cons key keys) :=
  ⟨List.forall_mem_cons.mpr ⟨is, listed.each⟩, listed.stopped⟩

theorem known_groupKeysFrom {last : Token} (before : known last) (all : ∀ token ∈ tokens, known token)
    (needComma : Bool) : (groupKeysFrom last needComma tokens).Known known id := by
  induction tokens generalizing last needComma with
  | nil =>
    rw [groupKeysFrom]
    split
    · exact .done
    · exact .stop before rfl
  | cons token tokens ih =>
    obtain ⟨is, later⟩ := List.forall_mem_cons.mp all
    rw [groupKeysFrom]
    split
    · split
      · exact ih is later _
      · exact .stop is rfl
    · split
      · exact .stop is rfl
      · exact (ih is later _).cons is

theorem known_groupKeys {keyword : Token} (is : known keyword) (all : ∀ token ∈ tokens, known token) :
    (groupKeys keyword tokens).Known known id := by
  rw [groupKeys]
  split
  · exact .stop is rfl
  · exact known_groupKeysFrom is all _

theorem known_orderKeys {next : Token} (after : known next) (all : ∀ token ∈ tokens, known token)
    (pending : Option PendingKey) (before : ∀ key ∈ pending, known key.token) :
    (orderKeys next pending tokens).Known known Prod.fst := by
  induction tokens generalizing pending with
  | nil =>
    cases pending with
    | none => exact .stop after rfl
    | some key => exact Keys.Known.done.cons (before key rfl)
  | cons token tokens ih =>
    obtain ⟨is, later⟩ := List.forall_mem_cons.mp all
    rw [orderKeys.eq_def]
    dsimp only
    split
    · cases pending with
      | none => exact .stop is rfl
      | some key => exact (ih later none (by simp)).cons (before key rfl)
    split
    · exact .stop is rfl
    cases pending with
    | none => exact ih later _ (by simpa using is)
    | some key =>
      obtain ⟨key, direction⟩ := key
      cases direction with
      | some direction => exact .stop is rfl
      | none =>
        dsimp only
        split
        · exact ih later _ (by simpa using before ⟨key, none⟩ rfl)
        · exact .stop is rfl

variable {schema : Schema} {type : RecordType}

theorem fails_bindPath {token : Token} (refused : Raised known (.atToken token (.wholeRelationship token.text))) :
    Fails (Raised known) (bindPath schema type token) :=
  (fails_schema _).bind fun _ _ => .guard (fun _ => refused) fun _ => .ok _

theorem fails_check {keys : Keys α} {token : α → Token} (listed : keys.Known known token)
    {check : α → Except QueryError Unit} (each : ∀ key, known (token key) → Fails (Raised known) (check key)) :
    Fails (Raised known) (keys.check check) := by
  refine (Fails.list_forM fun key member => each key (listed.each key member)).bind fun _ _ => ?_
  split
  · rename_i failure failed
    exact .error (listed.stopped failure failed)
  · exact .ok _

theorem fails_bindGroupKeys {keys : Keys Token} (listed : keys.Known known id) :
    Fails (Raised known) (bindGroupKeys schema type keys) := by
  refine (fails_check listed fun token is => ?_).bind fun _ _ => .ok _
  exact (fails_bindPath (.token is rfl)).bind fun _ _ => .ok _

theorem fails_bindSortKeys {keys : Keys (Token × Direction)} (listed : keys.Known known Prod.fst) :
    Fails (Raised known) (bindSortKeys schema type keys) := by
  refine (fails_check listed fun key is => ?_).bind fun _ _ => .ok _
  exact (fails_bindPath (.token is rfl)).bind fun _ _ => .ok _

theorem fails_rowCount {keyword : Token} (is : known keyword) (all : ∀ token ∈ tokens, known token)
    (count : RowCount) : Fails (Raised known) (rowCount count keyword tokens) := by
  cases tokens with
  | nil => exact fails_at is rfl
  | cons first rest =>
    have first_ := all first (.head _)
    rw [rowCount]
    split
    · split
      · exact .ok _
      · exact fails_at first_ rfl
    · exact fails_at first_ rfl

theorem fails_checkRestriction (restriction : Restriction) :
    Fails (Raised known) (checkRestriction schema type restriction) := by
  refine .list_forM fun node _ => ?_
  rw [checkLeaf]
  split
  · exact .ok _
  · refine (fails_bindPath .unplaced).bind fun field _ => ?_
    split
    · exact fails_schema _
    · exact .ok _

end Keys

section Level

theorem fails_listValues {last : Token} (before : known last) (all : ∀ token ∈ tokens, known token)
    (needComma : Bool) : Fails (Raised known) (listValues last needComma tokens) := by
  induction tokens generalizing last needComma with
  | nil =>
    rw [listValues]
    split
    · exact .ok _
    · exact fails_at before rfl
  | cons token tokens ih =>
    obtain ⟨is, later⟩ := List.forall_mem_cons.mp all
    rw [listValues]
    split
    · exact fails_at is rfl
    split
    · split
      · exact ih is later _
      · exact fails_at is rfl
    split
    · exact fails_at is rfl
    · exact (ih is later _).bind fun _ _ => .ok _

/-- The refusals of a token are no mismatch of brackets. -/
theorem Phase.isMismatch_refusal (phase : Phase) (token : Token) (part : Part) :
    (phase.refusal token part).isMismatch = false := by
  cases phase with
  | predicate property relation operator => cases relation <;> cases part <;> rfl
  | start => cases part <;> rfl
  | subject property => cases part <;> rfl
  | chain joined children => cases part <;> rfl

/-- Tokens of the query before the one that was put at the end. -/
def Stocked (known : Token → Prop) (last : Token) (tokens : List Token) : Prop :=
  ∃ inner, tokens = inner ++ [last] ∧ ∀ token ∈ inner, known token

namespace Stocked

variable {last token : Token} {rest : List Token}

theorem head (stocked : Stocked known last (token :: rest)) : known token ∨ token = last := by
  obtain ⟨inner, shape, all⟩ := stocked
  cases inner with
  | nil => exact .inr (List.cons.inj shape).1
  | cons first inner =>
    obtain ⟨rfl, -⟩ := List.cons.inj shape
    exact .inl (all _ (.head _))

/-- What is followed by more is of the query. -/
theorem of_append {before : List Token} (stocked : Stocked known last (before ++ rest))
    (ahead : Ahead (depth + 1) rest) :
    (∀ token ∈ before, known token) ∧ Stocked known last rest := by
  have given : rest ≠ [] := by
    rintro rfl
    exact Ahead.not_nil ahead
  obtain ⟨inner, shape, all⟩ := stocked
  obtain ⟨more, other, rfl⟩ := (List.eq_nil_or_concat' rest).resolve_left given
  rw [← List.append_assoc] at shape
  obtain ⟨rfl, same⟩ := List.append_inj' shape rfl
  obtain ⟨before, after⟩ := List.forall_mem_append.mp all
  exact ⟨before, more, by rw [same], after⟩

theorem of_cons (stocked : Stocked known last (token :: rest)) (ahead : Ahead (depth + 1) rest) :
    Stocked known last rest := by
  have split : Stocked known last ([token] ++ rest) := stocked
  exact (split.of_append ahead).2

end Stocked

/-- Readers of what is nested that fail as they should on tokens before a bracket that was put at their end. -/
structure Dependable (known : Token → Prop) (ending last : Token) (child : RestrictionReader)
    (subquery : SubqueryReader) : Prop where
  closes : last.kind = .closing
  empty : Raised known (.atToken last .emptyRestriction)
  restrictions : ∀ depth tokens, Ahead (depth + 1) tokens → Stocked known last tokens →
    Fails (Raised known) (child ending tokens)
  ahead : ∀ depth tokens restriction rest, Ahead (depth + 1) tokens →
    Yields (child ending tokens) restriction rest → rest <:+ tokens ∧ Ahead (depth + 1) rest
  subqueries : ∀ closing tokens, known closing → closing.kind = .closing → Balanced 0 tokens →
    (∀ token ∈ tokens, token.kind.isWritten = true) → (∀ token ∈ tokens, known token) →
    Fails (Raised known) (subquery closing tokens)

namespace Dependable

variable {last token : Token} {child : RestrictionReader} {subquery : SubqueryReader} {depth : Nat}

/-- Only a closing bracket can be the one at the end. -/
theorem known_of_part (nested : Dependable known ending last child subquery)
    (stocked : Stocked known last (token :: tokens)) (other : Part.ofToken token ≠ .closing) : known token := by
  refine stocked.head.resolve_right ?_
  rintro rfl
  exact other (Part.ofToken_eq_closing.mpr nested.closes)

theorem later (nested : Dependable known ending last child subquery) (ahead : Ahead (depth + 1) tokens)
    (stocked : Stocked known last tokens) (read : Yields (child ending tokens) restriction rest) :
    Ahead (depth + 1) rest ∧ Stocked known last rest := by
  obtain ⟨⟨before, rfl⟩, after⟩ := nested.ahead _ _ _ _ ahead read
  exact ⟨after, (stocked.of_append after).2⟩

theorem membership (nested : Dependable known ending last child subquery) {opening closing : Token}
    (opens : known opening) (closes : known closing) (bracket : closing.kind = .closing)
    (balanced : Balanced 0 tokens) (written : ∀ token ∈ tokens, token.kind.isWritten = true)
    (all : ∀ token ∈ tokens, known token) (property : Token) :
    Fails (Raised known) (membership subquery property opening closing tokens) := by
  cases tokens with
  | nil => exact fails_at opens rfl
  | cons first rest =>
    rw [Query.membership]
    split
    · exact (nested.subqueries _ _ closes bracket balanced written all).bind fun _ _ => .ok _
    · exact (fails_listValues opens all _).bind fun _ _ => .ok _

theorem predicate (nested : Dependable known ending last child subquery) (ahead : Ahead (depth + 1) tokens)
    (stocked : Stocked known last tokens) (property : Token) (relation : Relation) {operator : Token}
    (is : known operator) :
    Fails (Raised known) (level child subquery ending 0 (.predicate property relation operator) tokens) := by
  cases tokens with
  | nil => exact absurd ahead Ahead.not_nil
  | cons token tokens =>
    have refused := nested.known_of_part stocked
    by_cases listed : relation = .isIn ∧ Part.ofToken token = .opening
    · obtain ⟨rfl, part⟩ := listed
      have inside := ahead.of_opening (Part.ofToken_eq_opening.mp part)
      obtain ⟨inner, closing, rest, found, rfl, closes, balanced, after⟩ := inside.exists_splitClosing
      have written : ∀ token ∈ inner, token.kind.isWritten = true :=
        fun token member => inside.written token (List.mem_append_left _ member)
      have split : Stocked known last (token :: (inner ++ [closing]) ++ rest) := by simpa using stocked
      have all := (split.of_append after).1
      simp only [List.forall_mem_cons, List.forall_mem_append] at all
      rw [level_isIn part found]
      exact (nested.membership all.1 all.2.2.1 closes balanced written all.2.1 property).bind fun _ _ => .ok _
    · rw [level.eq_def]
      cases relation <;> cases part : Part.ofToken token <;> simp only [part]
      case compare.closing | isIn.closing => exact fails_at is rfl
      case compare.operand => exact .ok _
      case isIn.opening => exact absurd ⟨rfl, part⟩ listed
      all_goals exact fails_at (refused (by simp [part])) (Phase.isMismatch_refusal ..)

theorem subject (nested : Dependable known ending last child subquery) (ahead : Ahead (depth + 1) tokens)
    (stocked : Stocked known last tokens) {property : Token} (is : known property) :
    Fails (Raised known) (level child subquery ending 0 (.subject property) tokens) := by
  cases tokens with
  | nil => exact absurd ahead Ahead.not_nil
  | cons token tokens =>
    have refused := nested.known_of_part stocked
    rw [level.eq_def]
    cases part : Part.ofToken token <;> simp only [part]
    case closing => exact fails_at is rfl
    case isNull => exact .ok _
    case relation relation =>
      have after := ahead.of_part (by simp [part]) (by simp [part])
      have read := nested.predicate after (stocked.of_cons after) property relation (refused (by simp [part]))
      exact read.bind fun _ _ => .ok _
    all_goals exact fails_at (refused (by simp [part])) (Phase.isMismatch_refusal ..)

/-- In brackets; as long as there is no connective there is one restriction. -/
theorem chain (nested : Dependable known ending last child subquery) (ahead : Ahead (depth + 1) tokens)
    (stocked : Stocked known last tokens) (joined : Option Connective) (children : List Restriction)
    (single : joined = none → ∃ only, children = [only]) :
    Fails (Raised known) (level child subquery ending 1 (.chain joined children) tokens) := by
  induction size : tokens.length using Nat.strongRecOn generalizing tokens joined children with
  | ind size ih =>
    subst size
    cases tokens with
    | nil => exact absurd ahead Ahead.not_nil
    | cons token tokens =>
      have refused := nested.known_of_part stocked
      rw [level.eq_def]
      cases part : Part.ofToken token <;> simp only [part]
      case closing =>
        cases joined with
        | none =>
          obtain ⟨only, rfl⟩ := single rfl
          exact .ok _
        | some connective => exact .ok _
      case connective connective =>
        have after := ahead.of_part (by simp [part]) (by simp [part])
        split
        · refine (nested.restrictions _ _ after (stocked.of_cons after)).bind ?_
          rintro ⟨next, rest, shorter⟩ read
          obtain ⟨ahead, stocked⟩ := nested.later after (stocked.of_cons after) ⟨shorter, read⟩
          have whole := ih rest.length (Nat.lt_succ_of_lt shorter) ahead stocked (some connective)
            (children ++ [next]) (by simp) rfl
          exact whole.bind fun _ _ => .ok _
        · exact fails_at (refused (by simp [part])) rfl
      all_goals exact fails_at (refused (by simp [part])) (Phase.isMismatch_refusal ..)

theorem bracket (nested : Dependable known ending last child subquery) (opens : token.kind = .opening)
    (ahead : Ahead (depth + 1) tokens) (stocked : Stocked known last tokens) :
    Fails (Raised known) (level child subquery ending 0 .start (token :: tokens)) := by
  rw [level.eq_def]
  simp only [Part.ofToken_eq_opening.mpr opens]
  refine (nested.restrictions _ _ ahead stocked).bind ?_
  rintro ⟨first, rest, shorter⟩ read
  obtain ⟨ahead, stocked⟩ := nested.later ahead stocked ⟨shorter, read⟩
  exact (nested.chain ahead stocked none [first] (by simp)).bind fun _ _ => .ok _

theorem start (nested : Dependable known ending last child subquery) (ahead : Ahead (depth + 1) tokens)
    (stocked : Stocked known last tokens) :
    Fails (Raised known) (level child subquery ending 0 .start tokens) := by
  cases tokens with
  | nil => exact absurd ahead Ahead.not_nil
  | cons token tokens =>
    have refused := nested.known_of_part stocked
    by_cases opens : Part.ofToken token = .opening
    · have opens := Part.ofToken_eq_opening.mp opens
      have after := ahead.of_opening opens
      exact nested.bracket opens after (stocked.of_cons after)
    rw [level.eq_def]
    cases part : Part.ofToken token <;> simp only [part]
    case opening => exact absurd part opens
    case closing =>
      rcases stocked.head with is | rfl
      · exact fails_at is rfl
      · exact .error nested.empty
    case not =>
      have after := ahead.of_part opens (by simp [part])
      exact (nested.restrictions _ _ after (stocked.of_cons after)).bind fun _ _ => .ok _
    case operand =>
      have is := refused (by simp [part])
      have after := ahead.of_part opens (by simp [part])
      split
      · exact (nested.subject after (stocked.of_cons after) is).bind fun _ _ => .ok _
      · exact fails_at is rfl
    all_goals exact fails_at (refused (by simp [part])) (Phase.isMismatch_refusal ..)

end Dependable

end Level

section Window

theorem next_of_window? (found : window? ending clause listed = some (window, next)) :
    next = ending ∨ ∃ later ∈ listed, next = later.keyword := by
  induction listed with
  | nil => cases found
  | cons first rest ih =>
    rw [window?] at found
    split at found
    · cases found
      cases rest with
      | nil => exact .inl rfl
      | cons second rest => exact .inr ⟨second, by simp, rfl⟩
    · rcases ih found with same | ⟨later, member, same⟩
      · exact .inl same
      · exact .inr ⟨later, .tail _ member, same⟩

/-- A window as it stands in a query, with the token after it. -/
structure Window.Placed (known : Token → Prop) (window : Window) (after : Token) : Prop where
  keyword : known window.keyword
  where_ : window.clause = .where_ → window.keyword.isKeyword "WHERE" = true
  inside : ∀ token ∈ window.tokens, known token
  written : ∀ token ∈ window.tokens, token.kind.isWritten = true
  balanced : Balanced 0 window.tokens
  next : known after
  boundary : IsBoundary after

theorem isKeyword_of_isHeaded {window : Window} (headed : window.IsHeaded) (where_ : window.clause = .where_) :
    window.keyword.isKeyword "WHERE" = true := by
  rcases headed with ⟨lone, -⟩ | ⟨paired, -⟩
  · rw [where_, loneClause?] at lone
    split at lone
    · assumption
    · split at lone
      · cases lone
      · split at lone <;> cases lone
  · rw [where_, byClause?] at paired
    split at paired
    · cases paired
    · split at paired <;> cases paired

theorem isBoundary_of_isHeaded {window : Window} (headed : window.IsHeaded) : IsBoundary window.keyword := by
  rcases headed with ⟨lone, -⟩ | ⟨paired, -⟩
  · exact .inr (.inr (.inl (by simp [lone])))
  · exact .inr (.inr (.inr (by simp [paired])))

theorem placed_of_windows (listed : Windows [] tokens found) (all : ∀ token ∈ tokens, known token)
    (written : ∀ token ∈ tokens, token.kind.isWritten = true) (last : known ending) (ends : IsBoundary ending)
    (at_ : window? ending clause found = some (window, next)) :
    window.Placed known next ∧ window.clause = clause := by
  have keywords : ∀ window ∈ found, known window.keyword := by
    intro window member
    apply all
    rw [← listed.flatMap_all]
    exact List.mem_flatMap.mpr ⟨window, member, .head _⟩
  obtain ⟨member, same⟩ := mem_of_window? at_
  obtain ⟨headed, balanced, -⟩ := listed.each window member
  have inside : ∀ token ∈ window.tokens, token ∈ tokens := fun token => listed.mem_tokens member
  have after : known next ∧ IsBoundary next := by
    rcases next_of_window? at_ with rfl | ⟨later, member, rfl⟩
    · exact ⟨last, ends⟩
    · exact ⟨keywords later member, isBoundary_of_isHeaded (listed.each later member).1⟩
  exact ⟨⟨keywords window member, isKeyword_of_isHeaded headed, fun token within => all token (inside token within),
    fun token within => written token (inside token within), balanced, after.1, after.2⟩, same⟩

end Window

end Query

namespace Compiler

variable {compiler : Compiler} {known : Token → Prop} {depth : Nat} {tokens : List Token}

/-- The reader of the windows of a query fails as it should. -/
def FailsAtWindows (compiler : Compiler) (known : Token → Prop) (depth : Nat) : Prop :=
  ∀ ending keyword next tokens, known keyword → keyword.isKeyword "WHERE" = true → known next → IsBoundary next →
    Ahead 1 tokens → Stocked known ⟨.closing, ")", next.position⟩ tokens →
    Fails (Raised known) (compiler.restriction depth ending (⟨.opening, "(", keyword.position⟩ :: tokens))

theorem fails_readWhere (reads : compiler.FailsAtWindows known depth) (placed : window.Placed known next)
    (where_ : window.clause = .where_) :
    Fails (Raised known) (readWhere (compiler.restriction depth) window next) := by
  have ahead : Ahead 1 (window.tokens ++ [⟨.closing, ")", next.position⟩]) :=
    .of_balanced placed.balanced placed.written rfl
  rw [readWhere]
  refine .guard (fun _ => .token placed.keyword rfl) fun _ => ?_
  have read := reads next window.keyword next _ placed.keyword (placed.where_ where_) placed.next placed.boundary ahead
    ⟨window.tokens, rfl, placed.inside⟩
  refine read.bind ?_
  rintro ⟨restriction, rest, shorter⟩ found
  obtain rfl := eq_nil_of_restriction rfl ahead ⟨shorter, found⟩
  exact .ok _

theorem fails_assemble (reads : compiler.FailsAtWindows known depth) {found : List Window}
    (placed : ∀ clause window next, window? ending clause found = some (window, next) →
      window.Placed known next ∧ window.clause = clause)
    (schema : Schema) (isSubquery : Bool) (type : RecordType) (selected : List Selected) :
    Fails (Raised known) (assemble schema (compiler.restriction depth) isSubquery ending type selected found) := by
  rw [assemble_eq]
  refine (Fails.option_mapM ?_).bind fun restriction _ => ?_
  · rintro ⟨window, next⟩ at_
    obtain ⟨placed, clause⟩ := placed _ _ _ at_
    refine (fails_readWhere reads placed clause).bind fun restriction _ => ?_
    exact (fails_checkRestriction restriction).bind fun _ _ => .ok _
  refine (Fails.option_elim ?_).bind fun groupBy _ => (fails_schema _).bind fun _ _ => ?_
  · rintro ⟨window, next⟩ at_
    obtain ⟨placed, -⟩ := placed _ _ _ at_
    exact fails_bindGroupKeys (known_groupKeys placed.keyword placed.inside)
  refine (Fails.option_elim ?_).bind fun orderBy _ => ?_
  · rintro ⟨window, next⟩ at_
    obtain ⟨placed, -⟩ := placed _ _ _ at_
    exact fails_bindSortKeys (known_orderKeys placed.next placed.inside none (by simp))
  have counts (count : RowCount) (clause : Clause) : Fails (Raised known)
      ((window? ending clause found).mapM fun place => rowCount count place.1.keyword place.1.tokens) := by
    refine .option_mapM ?_
    rintro ⟨window, next⟩ at_
    obtain ⟨placed, -⟩ := placed _ _ _ at_
    exact fails_rowCount placed.keyword placed.inside count
  exact (counts .limit .limit).bind fun limit _ => (counts .offset .offset).bind fun offset _ => .ok _

/-- A query fails as it should, if the scan of its clauses does. -/
theorem fails_query {allowed : QueryError → Prop} (reads : compiler.FailsAtWindows known depth)
    (all : ∀ token ∈ tokens, known token) (written : ∀ token ∈ tokens, token.kind.isWritten = true)
    (last : known ending) (ends : IsBoundary ending) (isSubquery : Bool)
    (raised : ∀ error, Raised known error → allowed error)
    (scan : (tokens.headD ending).isKeyword "SELECT" = true → ∀ items rest,
      selectList ending .first (tokens.drop 1) = .ok (items, rest) → (rest.headD ending).kind = .word →
      Fails allowed (windows ending (rest.drop 1))) :
    Fails allowed (compiler.query (compiler.restriction depth) isSubquery ending tokens) := by
  have heads : ∀ {tokens : List Token}, (∀ token ∈ tokens, known token) → known (tokens.headD ending) := by
    intro tokens all
    cases tokens with
    | nil => exact last
    | cons first rest => exact all first (.head _)
  have behind : ∀ token ∈ tokens.drop 1, known token := fun token member => all token (List.mem_of_mem_drop member)
  rw [query]
  refine .guard (fun _ => raised _ (.token (heads all) rfl)) fun selects => ?_
  refine ((fails_selectList behind last .first).mono raised).bind ?_
  rintro ⟨items, rest⟩ listed
  have suffix := suffix_of_selectList listed
  have later : ∀ token ∈ rest, known token := fun token member => behind token (suffix.subset member)
  obtain ⟨phrase, from_, shape, -, entries⟩ := (selectList_eq_ok_iff (by decide)).mp listed
  have items_ : ∀ item ∈ items, item.Known known := by
    refine known_items entries fun token member => behind token ?_
    rw [shape]
    exact List.mem_append_left _ member
  refine .guard (fun _ => raised _ (.token (heads later) rfl)) fun named => ?_
  split
  · rename_i type resolved
    refine ((fails_bindSelect items_ none).mono raised).bind fun selected _ => ?_
    refine (scan (by simpa using selects) items rest listed (by simpa using named)).bind fun found split => ?_
    have clauses := windows_eq_ok_iff.mp split
    have inside : ∀ token ∈ rest.drop 1, known token := fun token member => later token (List.mem_of_mem_drop member)
    have writtenInside : ∀ token ∈ rest.drop 1, token.kind.isWritten = true := by
      intro token member
      exact written token (List.mem_of_mem_drop (suffix.subset (List.mem_of_mem_drop member)))
    have assembled := fails_assemble reads
      (fun _ _ _ at_ => placed_of_windows clauses inside writtenInside last ends at_)
      compiler.schema isSubquery type selected
    exact assembled.mono raised
  · exact .error (raised _ (.token (heads later) rfl))

/-- If the brackets of a query match, those of its clauses do. -/
theorem balanced_clauses (balanced : Balanced 0 tokens) (selects : (tokens.headD ending).isKeyword "SELECT" = true)
    (listed : selectList ending .first (tokens.drop 1) = .ok (items, rest))
    (named : (rest.headD ending).kind = .word) : Balanced 0 (rest.drop 1) := by
  cases tokens with
  | nil => cases listed
  | cons first tokens =>
    obtain ⟨phrase, from_, rfl, separates, entries⟩ := (selectList_eq_ok_iff (by decide)).mp listed
    have word : ∀ {token : Token}, token.kind = .word → Balanced 0 [token] :=
      fun kind => balanced_of_words (by simpa using kind)
    have select := (word (Token.kind_of_isKeyword selects)).append (entries.balanced ItemPhrase.balanced)
    have before := select.append (word (Token.kind_of_isKeyword separates))
    have after : Balanced 0 rest := before.of_append (by simpa using balanced)
    cases rest with
    | nil => exact after
    | cons name clauses => exact (word named).of_append after

/-- A query whose brackets match fails as it should. -/
theorem fails_balanced (reads : compiler.FailsAtWindows known depth) (balanced : Balanced 0 tokens)
    (all : ∀ token ∈ tokens, known token) (written : ∀ token ∈ tokens, token.kind.isWritten = true)
    (last : known ending) (ends : IsBoundary ending) (isSubquery : Bool) :
    Fails (Raised known) (compiler.query (compiler.restriction depth) isSubquery ending tokens) := by
  refine fails_query reads all written last ends isSubquery (fun _ raised => raised) ?_
  intro selects items rest listed named
  have inside : ∀ token ∈ rest.drop 1, known token := by
    intro token member
    exact all token (List.mem_of_mem_drop ((suffix_of_selectList listed).subset (List.mem_of_mem_drop member)))
  refine (fails_windows inside last).mono ?_
  rintro _ ⟨token, cause, is, rfl, matched⟩
  exact .token is (matched (balanced_clauses balanced selects listed named))

/-- Whatever the depth, restrictions and subqueries fail as they should. -/
theorem fails_nested (compiler : Compiler) (known : Token → Prop) (depth : Nat) :
    (∀ ending next opened tokens, known next → IsBoundary next → Ahead (opened + 1) tokens →
      Stocked known ⟨.closing, ")", next.position⟩ tokens →
      Fails (Raised known) (compiler.restriction depth ending tokens)) ∧
    compiler.FailsAtWindows known depth ∧
    (∀ closing tokens, known closing → closing.kind = .closing → Balanced 0 tokens →
      (∀ token ∈ tokens, token.kind.isWritten = true) → (∀ token ∈ tokens, known token) →
      Fails (Raised known) (compiler.subquery depth closing tokens)) := by
  induction depth with
  | zero =>
    refine ⟨?_, ?_, ?_⟩
    · intro ending next opened tokens is boundary ahead stocked
      cases tokens with
      | nil => exact absurd ahead Ahead.not_nil
      | cons token tokens =>
        rcases stocked.head with inside | rfl
        · exact fails_at inside rfl
        · exact .error (.closed is boundary (.inr ⟨_, rfl⟩))
    · intro ending keyword next tokens is where_ _ _ _ _
      exact .error (.opened is where_)
    · intro closing tokens is _ _ _ all
      cases tokens with
      | nil => exact fails_at is rfl
      | cons first rest => exact fails_at (all first (.head _)) rfl
  | succ depth ih =>
    obtain ⟨restrictions, reads, subqueries⟩ := ih
    have nested (ending : Token) {next : Token} (is : known next) (boundary : IsBoundary next) :
        Dependable known ending ⟨.closing, ")", next.position⟩ (compiler.restriction depth)
          (compiler.subquery depth) := by
      refine ⟨rfl, .closed is boundary (.inl rfl), ?_, fun _ _ _ _ => ahead_of_restriction, subqueries⟩
      intro opened tokens
      exact restrictions ending next opened tokens is boundary
    refine ⟨?_, ?_, ?_⟩
    · intro ending next opened tokens is boundary ahead stocked
      exact (nested ending is boundary).start ahead stocked
    · intro ending keyword next tokens _ _ is boundary ahead stocked
      exact (nested ending is boundary).bracket rfl ahead stocked
    · intro closing tokens is closes balanced written all
      exact fails_balanced reads balanced all written is (.inr (.inl closes)) true

/-- Where an error comes from that a text is refused with: from its tokens, from the scan of its outermost
clauses, or from the rest. -/
inductive Refusal (compiler : Compiler) (text : Text) : QueryError → Prop where
  | lexed {error : SyntaxError} (failed : (Lexer.start text compiler.operators).run = .error error) :
      Refusal compiler text (.malformed error)
  | scanned {tokens rest : List Token} {ending : Token} {items : List SelectItem} {error : QueryError}
      (ran : (Lexer.start text compiler.operators).run = .ok (tokens, ending))
      (listed : selectList ending .first (tokens.drop 1) = .ok (items, rest))
      (failed : windows ending (rest.drop 1) = .error error) : Refusal compiler text error
  | raised {tokens : List Token} {ending : Token} {error : QueryError}
      (ran : (Lexer.start text compiler.operators).run = .ok (tokens, ending))
      (raised : Raised (· ∈ ending :: tokens) error) : Refusal compiler text error

theorem refusal_of_compile (failed : compiler.compile text = .error error) : compiler.Refusal text error := by
  rw [compile] at failed
  cases ran : (Lexer.start text compiler.operators).run with
  | error unterminated =>
    rw [ran] at failed
    cases failed
    exact .lexed ran
  | ok result =>
    obtain ⟨tokens, ending⟩ := result
    rw [ran] at failed
    obtain ⟨traced, ends⟩ := Lexer.run_traced ran
    refine fails_query (fails_nested compiler (· ∈ ending :: tokens) compiler.maxDepth).2.1
      (fun token member => .tail _ member) traced.written (.head _) (.inl ends) false
      (fun _ => .raised ran) ?_ error failed
    intro _ items rest listed _ error failed
    exact .scanned ran listed failed

end Compiler
end RecordQuery
