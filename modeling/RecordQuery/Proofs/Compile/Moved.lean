import Mathlib.Data.List.Forall2
import RecordQuery.Proofs.Success
import RecordQuery.Query.Binding
import RecordQuery.Query.Window

/-! Where the tokens of a query stand decides nothing but the places in error messages. Here for the clauses:
they are read from tokens that are moved elsewhere as they are from the tokens themselves. -/
namespace RecordQuery

/-- The same token, but maybe elsewhere. -/
inductive Token.Moved : Token → Token → Prop where
  | intro {kind : TokenKind} {text : Text} {place other : Option Position} :
      Moved ⟨kind, text, place⟩ ⟨kind, text, other⟩

/-- The error, but for its place. -/
def QueryError.unplaced : QueryError → QueryError
  | malformed error => malformed { error with position := none }
  | schema error => schema error

namespace Token.Moved

variable {first second : Token}

theorem kind (moved : Moved first second) : first.kind = second.kind := by
  cases moved
  rfl

theorem text (moved : Moved first second) : first.text = second.text := by
  cases moved
  rfl

theorem value (moved : Moved first second) : first.value = second.value := by
  cases moved
  rfl

theorem isKeyword (moved : Moved first second) (keyword : Text) :
    first.isKeyword keyword = second.isKeyword keyword := by
  cases moved
  rfl

theorem atToken (moved : Moved first second) (cause : Cause) :
    (QueryError.atToken first cause).unplaced = (QueryError.atToken second cause).unplaced := by
  cases moved
  rfl

end Token.Moved

section Agree

variable {α β γ δ : Type}

/-- Both outcomes are errors that differ at most in their places, or both are results, which are related. -/
inductive Agree (related : α → β → Prop) : Except QueryError α → Except QueryError β → Prop where
  | ok {value : α} {other : β} (holds : related value other) : Agree related (.ok value) (.ok other)
  | error {error cause : QueryError} (same : error.unplaced = cause.unplaced) :
      Agree related (.error error) (.error cause)

variable {related : α → β → Prop} {related' : γ → δ → Prop}

theorem Agree.pure {value : α} {other : β} (holds : related value other) :
    Agree related (pure value) (pure other) :=
  .ok holds

theorem Agree.atToken {first second : Token} (moved : first.Moved second) (cause : Cause) :
    Agree related (.error (.atToken first cause)) (.error (.atToken second cause)) :=
  .error (moved.atToken cause)

theorem Agree.refl (outcome : Except QueryError α) : Agree (· = ·) outcome outcome := by
  cases outcome with
  | error error => exact .error rfl
  | ok value => exact .ok rfl

theorem Agree.mapError_eq {first second : Except QueryError α} (agree : Agree (· = ·) first second) :
    first.mapError QueryError.unplaced = second.mapError QueryError.unplaced := by
  cases agree with
  | ok same => rw [same]
  | error same => exact congrArg Except.error same

theorem Agree.bind {step : Except QueryError α} {step' : Except QueryError β} {next : α → Except QueryError γ}
    {next' : β → Except QueryError δ} (first : Agree related step step')
    (second : ∀ value other, related value other → Agree related' (next value) (next' other)) :
    Agree related' (step >>= next) (step' >>= next') := by
  cases first with
  | ok holds => exact second _ _ holds
  | error same => exact .error same

/-- A first step that is the same. -/
theorem Agree.bind_same (step : Except QueryError α) {next : α → Except QueryError γ}
    {next' : α → Except QueryError δ} (second : ∀ value, Agree related' (next value) (next' value)) :
    Agree related' (step >>= next) (step >>= next') := by
  refine (Agree.refl step).bind ?_
  rintro value _ rfl
  exact second value

/-- A step that only checks. -/
theorem Agree.guard {wrong : Prop} [Decidable wrong] {first second : Token} {cause : Cause}
    {next : Except QueryError α} {next' : Except QueryError β} {skipped : γ → Except QueryError α}
    {skipped' : δ → Except QueryError β}
    (moved : first.Moved second) (rest : ¬wrong → Agree related next next') :
    Agree related (if wrong then throw (.atToken first cause) >>= skipped else next)
      (if wrong then throw (.atToken second cause) >>= skipped' else next') := by
  by_cases holds : wrong
  · rw [if_pos holds, if_pos holds]
    exact .atToken moved cause
  · rw [if_neg holds, if_neg holds]
    exact rest holds

theorem option_map_related {image : α → γ} {image' : β → δ} {value : Option α} {other : Option β}
    (same : Option.Rel related value other)
    (each : ∀ value other, related value other → related' (image value) (image' other)) :
    Option.Rel related' (value.map image) (other.map image') := by
  cases same with
  | none => exact .none
  | some holds => exact .some (each _ _ holds)

theorem agree_option_mapM {step : α → Except QueryError γ} {step' : β → Except QueryError γ} {value : Option α}
    {other : Option β} (same : Option.Rel related value other)
    (each : ∀ value other, related value other → Agree (· = ·) (step value) (step' other)) :
    Agree (· = ·) (value.mapM step) (other.mapM step') := by
  cases same with
  | none => exact .refl _
  | some holds =>
    rw [Option.mapM_some, Option.mapM_some, map_eq_pure_bind, map_eq_pure_bind]
    refine (each _ _ holds).bind ?_
    rintro value _ rfl
    exact .refl _

theorem agree_option_elim {default : Except QueryError γ} {step : α → Except QueryError γ}
    {step' : β → Except QueryError γ} {value : Option α} {other : Option β} (same : Option.Rel related value other)
    (each : ∀ value other, related value other → Agree (· = ·) (step value) (step' other)) :
    Agree (· = ·) (value.elim default step) (other.elim default step') := by
  cases same with
  | none => exact .refl _
  | some holds => exact each _ _ holds

theorem agree_forM {check : α → Except QueryError Unit} {check' : β → Except QueryError Unit} {values : List α}
    {others : List β} (same : List.Forall₂ related values others)
    (each : ∀ value other, related value other → Agree (· = ·) (check value) (check' other)) :
    Agree (· = ·) (values.forM check) (others.forM check') := by
  induction same with
  | nil => exact .refl _
  | cons first _ ih =>
    rw [List.forM_eq_forM, List.forM_cons, List.forM_eq_forM, List.forM_cons]
    exact (each _ _ first).bind fun _ _ _ => ih

theorem isEmpty_eq_of_forall₂ {values : List α} {others : List β} (same : List.Forall₂ related values others) :
    values.isEmpty = others.isEmpty := by
  cases same <;> rfl

theorem map_eq_of_forall₂ {values : List α} {others : List β} {image : α → γ} {image' : β → γ}
    (same : List.Forall₂ related values others)
    (each : ∀ value other, related value other → image value = image' other) :
    values.map image = others.map image' := by
  induction same with
  | nil => rfl
  | cons first _ ih => rw [List.map_cons, List.map_cons, each _ _ first, ih]

end Agree

namespace Query

open List (Forall₂)

variable {ending ending' : Token} {tokens others : List Token}

/-- The same entry with its token moved. -/
inductive SelectItem.Moved : SelectItem → SelectItem → Prop where
  | property {first second : Token} (moved : first.Moved second) : Moved (.property first) (.property second)
  | wildcard {first second : Token} (moved : first.Moved second) : Moved (.wildcard first) (.wildcard second)
  | aggregate {function : Aggregate} {first second : Token} (moved : first.Moved second) :
      Moved (.aggregate function first) (.aggregate function second)

theorem SelectItem.Moved.token {item item' : SelectItem} (same : item.Moved item') :
    item.token.Moved item'.token := by
  cases same with
  | property moved => exact moved
  | wildcard moved => exact moved
  | aggregate moved => exact moved

theorem SelectItem.moved_ofWord {first second : Token} (moved : first.Moved second) :
    Moved (.ofWord first) (.ofWord second) := by
  rw [ofWord, ofWord, moved.text]
  split
  · exact .wildcard moved
  · exact .property moved

theorem SelectItem.moved_ofCall {first second : Token} (moved : first.Moved second) (function : Aggregate) :
    Moved (.ofCall function first) (.ofCall function second) := by
  cases moved
  rw [ofCall, ofCall]
  split
  · exact .aggregate .intro
  · exact .aggregate .intro

theorem calls?_of_moved {first second : Token} (moved : first.Moved second)
    (same : Forall₂ Token.Moved tokens others) :
    calls? first tokens.head? = calls? second others.head? := by
  cases same with
  | nil => rfl
  | cons next _ => simp [calls?, next.kind, moved.text]

theorem agree_selectList (ends : ending.Moved ending') (place : SelectPlace)
    (same : Forall₂ Token.Moved tokens others) :
    Agree (fun read read' => Forall₂ SelectItem.Moved read.1 read'.1 ∧ Forall₂ Token.Moved read.2 read'.2)
      (selectList ending place tokens) (selectList ending' place others) := by
  -- A call takes four tokens at once, so the induction is on how many are left.
  induction size : tokens.length using Nat.strongRecOn generalizing place tokens others with
  | ind size ih =>
    subst size
    cases same with
    | nil =>
      rw [selectList, selectList]
      exact .atToken ends _
    | @cons token other rest rest' moved same =>
      rw [selectList.eq_def ending, selectList.eq_def ending']
      simp only [← moved.isKeyword, ← moved.kind, ← calls?_of_moved moved same]
      split
      · cases place with
        | first => exact .atToken moved _
        | afterComma => exact .atToken moved _
        | afterItem => exact .ok ⟨.nil, same⟩
      split
      · split
        · exact ih _ (Nat.lt_succ_self _) .afterComma same rfl
        · exact .atToken moved _
      split
      · exact .atToken moved _
      split
      · exact .atToken moved _
      split
      · exact .atToken moved _
      cases calls? token rest.head? with
      | none =>
        refine (ih _ (Nat.lt_succ_self _) .afterItem same rfl).bind ?_
        rintro ⟨items, after⟩ ⟨items', after'⟩ ⟨entries, left⟩
        exact .pure ⟨.cons (SelectItem.moved_ofWord moved) entries, left⟩
      | some function =>
        cases same with
        | nil => exact .atToken ends _
        | cons _ same =>
          cases same with
          | nil => exact .atToken ends _
          | cons argument same =>
            cases same with
            | nil =>
              simp only [← argument.kind]
              split
              · exact .atToken argument _
              · exact .atToken ends _
            | cons closing same =>
              simp only [← argument.kind, ← closing.kind]
              split
              · exact .atToken argument _
              split
              · exact .atToken closing _
              refine (ih _ (by simp only [List.length_cons]; omega) .afterItem same rfl).bind ?_
              rintro ⟨items, after⟩ ⟨items', after'⟩ ⟨entries, left⟩
              exact .pure ⟨.cons (SelectItem.moved_ofCall argument function) entries, left⟩

section Select

variable {schema : Schema} {type : RecordType} {item item' : SelectItem}

theorem agree_bindItem (same : item.Moved item') :
    Agree (· = ·) (bindItem schema type item) (bindItem schema type item') := by
  have path : item.path type = item'.path type := by
    cases same with
    | property moved => rw [SelectItem.path, SelectItem.path, moved.text]
    | wildcard _ => rfl
    | aggregate moved => rw [SelectItem.path, SelectItem.path, moved.text]
  rw [bindItem, bindItem, path]
  refine .bind_same _ fun path => .bind_same _ fun route => .guard same.token fun _ => ?_
  cases same with
  | property _ => exact .refl _
  | wildcard _ => exact .refl _
  | aggregate _ => exact .refl _

theorem agree_checkMixing (same : item.Moved item') (seen : Option Bool) (selected : Selected) :
    Agree (· = ·) (checkMixing seen item selected) (checkMixing seen item' selected) := by
  cases selected with
  | property path => exact .refl _
  | aggregate call overCollection =>
    rw [checkMixing, checkMixing]
    split
    · exact .atToken same.token _
    · exact .refl _

theorem agree_bindSelect {items items' : List SelectItem} (same : Forall₂ SelectItem.Moved items items')
    (seen : Option Bool) :
    Agree (· = ·) (bindSelect schema type seen items) (bindSelect schema type seen items') := by
  induction same generalizing seen with
  | nil => exact .refl _
  | cons first _ ih =>
    rw [bindSelect, bindSelect]
    refine (agree_bindItem first).bind ?_
    rintro selected _ rfl
    refine (agree_checkMixing first seen selected).bind ?_
    rintro seen _ rfl
    refine (ih seen).bind ?_
    rintro others _ rfl
    exact .refl _

end Select

/-- The same clause with its tokens moved. -/
structure Window.Moved (window other : Window) : Prop where
  clause : window.clause = other.clause
  keyword : window.keyword.Moved other.keyword
  second : Option.Rel Token.Moved window.second other.second
  tokens : Forall₂ Token.Moved window.tokens other.tokens

theorem agree_windowAt {token other : Token} (moved : token.Moved other)
    (same : Forall₂ Token.Moved tokens others) :
    Agree (Option.Rel Window.Moved) (windowAt token tokens) (windowAt other others) := by
  have lone : loneClause? token = loneClause? other := by simp [loneClause?, moved.isKeyword]
  have by_ : byClause? token = byClause? other := by simp [byClause?, moved.isKeyword]
  unfold windowAt
  rw [← lone, ← by_]
  cases loneClause? token with
  | some clause => exact .ok (.some ⟨rfl, moved, .none, .nil⟩)
  | none =>
    cases byClause? token with
    | none => exact .ok .none
    | some clause =>
      cases same with
      | nil =>
        rw [moved.text]
        exact .atToken moved _
      | cons next _ =>
        simp only [next.isKeyword]
        split
        · exact .ok (.some ⟨rfl, moved, .some next, .nil⟩)
        · exact .ok .none

theorem agree_checkOrder {opened opened' : Window} (same : opened.Moved opened') (seen : List Clause) :
    Agree (· = ·) (checkOrder seen opened) (checkOrder seen opened') := by
  rw [checkOrder, checkOrder, ← same.clause, same.keyword.text]
  split
  · exact .atToken same.keyword _
  split
  · exact .atToken same.keyword _
  · exact .refl _

/-- Clauses and the tokens that go on with the one before them. -/
def WindowsMoved (read read' : List Token × List Window) : Prop :=
  Forall₂ Token.Moved read.1 read'.1 ∧ Forall₂ Window.Moved read.2 read'.2

theorem agree_windowsFrom (ends : ending.Moved ending') (seen : List Clause) (depth : Nat)
    (same : Forall₂ Token.Moved tokens others) :
    Agree WindowsMoved (windowsFrom ending seen depth tokens) (windowsFrom ending' seen depth others) := by
  -- A keyword of two words takes two tokens, so the induction is on how many are left.
  induction size : tokens.length using Nat.strongRecOn generalizing seen depth tokens others with
  | ind size ih =>
    subst size
    cases same with
    | nil =>
      rw [windowsFrom, windowsFrom]
      split
      · exact .ok ⟨.nil, .nil⟩
      · exact .atToken ends _
    | @cons token other tokens others moved same =>
      have keeps (depth : Nat) : Agree WindowsMoved
          (windowsFrom ending seen depth tokens >>= fun read => pure (token :: read.1, read.2))
          (windowsFrom ending' seen depth others >>= fun read => pure (other :: read.1, read.2)) := by
        refine (ih _ (Nat.lt_succ_self _) seen depth same rfl).bind ?_
        rintro ⟨_, _⟩ ⟨_, _⟩ ⟨kept, windows⟩
        exact .pure ⟨.cons moved kept, windows⟩
      rw [windowsFrom.eq_def ending, windowsFrom.eq_def ending']
      simp only [← moved.kind]
      split
      · exact keeps _
      split
      · split
        · exact .atToken moved _
        · exact keeps _
      split
      · exact keeps _
      have starts := agree_windowAt moved same
      generalize windowAt token tokens = found at starts ⊢
      generalize windowAt other others = found' at starts ⊢
      cases starts with
      | error same => exact .error same
      | ok holds =>
        cases holds with
        | none => exact keeps 0
        | @some opened opened' holds =>
          refine (agree_checkOrder holds seen).bind fun _ _ _ => ?_
          have later : ∀ {rest rest' : List Token}, rest.length ≤ tokens.length → Forall₂ Token.Moved rest rest' →
              Agree WindowsMoved
                (windowsFrom ending (opened.clause :: seen) 0 rest >>= fun read =>
                  pure ([], { opened with tokens := read.1 } :: read.2))
                (windowsFrom ending' (opened'.clause :: seen) 0 rest' >>= fun read =>
                  pure ([], { opened' with tokens := read.1 } :: read.2)) := by
            intro rest rest' shorter same
            rw [← holds.clause]
            refine (ih _ (Nat.lt_succ_of_le shorter) (opened.clause :: seen) 0 same rfl).bind ?_
            rintro ⟨_, _⟩ ⟨_, _⟩ ⟨kept, windows⟩
            exact .pure ⟨.nil, .cons ⟨rfl, holds.keyword, holds.second, kept⟩ windows⟩
          obtain ⟨_, _, second, _⟩ := opened
          obtain ⟨_, _, second', _⟩ := opened'
          cases (show Option.Rel Token.Moved second second' from holds.second) with
          | none => exact later (Nat.le_refl _) same
          | some _ =>
            cases same with
            | nil => exact later (Nat.le_refl _) .nil
            | cons _ same => exact later (Nat.le_succ _) same

theorem agree_windows (ends : ending.Moved ending') (same : Forall₂ Token.Moved tokens others) :
    Agree (Forall₂ Window.Moved) (windows ending tokens) (windows ending' others) := by
  cases same with
  | nil => exact .ok .nil
  | cons moved same =>
    rw [windows, windows]
    refine (agree_windowAt moved same).bind ?_
    rintro _ _ holds
    cases holds with
    | none => exact .atToken moved _
    | @some opened opened' holds =>
      have drops : opened.second.toList.length = opened'.second.toList.length := by
        obtain ⟨_, _, second, _⟩ := opened
        obtain ⟨_, _, second', _⟩ := opened'
        cases (show Option.Rel Token.Moved second second' from holds.second) with
        | none => rfl
        | some _ => rfl
      simp only [← drops, ← holds.clause]
      refine (agree_windowsFrom ends _ 0 (List.forall₂_drop _ same)).bind ?_
      rintro ⟨_, _⟩ ⟨_, _⟩ ⟨kept, windows⟩
      exact .pure (.cons ⟨rfl, holds.keyword, holds.second, kept⟩ windows)

theorem window?_moved (ends : ending.Moved ending') (clause : Clause) {windows windows' : List Window}
    (same : Forall₂ Window.Moved windows windows') :
    Option.Rel (fun read read' => read.1.Moved read'.1 ∧ read.2.Moved read'.2)
      (window? ending clause windows) (window? ending' clause windows') := by
  induction same with
  | nil => exact .none
  | @cons window other rest rest' holds same ih =>
    rw [window?, window?, ← holds.clause]
    split
    · refine .some ⟨holds, ?_⟩
      cases same with
      | nil => exact ends
      | cons next _ => exact next.keyword
    · exact ih

section Keys

variable {α : Type} {related : α → α → Prop}

/-- Keys that are related, up to errors that differ at most in their places. -/
structure Keys.Moved (related : α → α → Prop) (read read' : Keys α) : Prop where
  keys : Forall₂ related read.keys read'.keys
  failure : Option.Rel (fun error cause => error.unplaced = cause.unplaced) read.failure read'.failure

theorem Keys.moved_stop {first second : Token} (moved : first.Moved second) (cause : Cause) :
    Keys.Moved related (.stop first cause) (.stop second cause) :=
  ⟨.nil, .some (moved.atToken cause)⟩

theorem Keys.Moved.cons {key other : α} {read read' : Keys α} (holds : related key other)
    (rest : Keys.Moved related read read') : Keys.Moved related (.cons key read) (.cons other read') :=
  ⟨.cons holds rest.keys, rest.failure⟩

theorem moved_groupKeysFrom {last last' : Token} (before : last.Moved last') (needComma : Bool)
    (same : Forall₂ Token.Moved tokens others) :
    Keys.Moved Token.Moved (groupKeysFrom last needComma tokens) (groupKeysFrom last' needComma others) := by
  induction same generalizing last last' needComma with
  | nil =>
    rw [groupKeysFrom, groupKeysFrom]
    split
    · exact ⟨.nil, .none⟩
    · exact Keys.moved_stop before _
  | cons moved _ ih =>
    rw [groupKeysFrom, groupKeysFrom, ← moved.kind]
    split
    · split
      · exact ih moved false
      · exact Keys.moved_stop moved _
    split
    · exact Keys.moved_stop moved _
    · exact (ih moved true).cons moved

theorem moved_groupKeys {keyword keyword' : Token} (starts : keyword.Moved keyword')
    (same : Forall₂ Token.Moved tokens others) :
    Keys.Moved Token.Moved (groupKeys keyword tokens) (groupKeys keyword' others) := by
  rw [groupKeys, groupKeys]
  cases same with
  | nil => exact Keys.moved_stop starts _
  | cons moved same => exact moved_groupKeysFrom starts false (.cons moved same)

/-- A sort key with its token moved. -/
def SortMoved (key other : Token × Direction) : Prop := key.1.Moved other.1 ∧ key.2 = other.2

theorem moved_orderKeys {next next' : Token} (ends : next.Moved next') {pending pending' : Option PendingKey}
    (before : Option.Rel (fun key other => key.token.Moved other.token ∧ key.direction = other.direction)
      pending pending')
    (same : Forall₂ Token.Moved tokens others) :
    Keys.Moved SortMoved (orderKeys next pending tokens) (orderKeys next' pending' others) := by
  induction same generalizing pending pending' with
  | nil =>
    rw [orderKeys.eq_def next, orderKeys.eq_def next']
    cases before with
    | none => exact Keys.moved_stop ends _
    | some holds => exact Keys.Moved.cons ⟨holds.1, congrArg (·.getD .asc) holds.2⟩ ⟨.nil, .none⟩
  | @cons token other _ _ moved _ ih =>
    rw [orderKeys.eq_def next, orderKeys.eq_def next']
    simp only [← moved.kind, ← moved.text]
    split
    · cases before with
      | none => exact Keys.moved_stop moved _
      | some holds => exact Keys.Moved.cons ⟨holds.1, congrArg (·.getD .asc) holds.2⟩ (ih .none)
    split
    · exact Keys.moved_stop moved _
    cases before with
    | none => exact ih (.some ⟨moved, rfl⟩)
    | @some key key' holds =>
      obtain ⟨key, direction⟩ := key
      obtain ⟨key', direction'⟩ := key'
      obtain ⟨keys, directions⟩ := holds
      cases directions
      cases direction with
      | some _ => exact Keys.moved_stop moved _
      | none =>
        cases Direction.ofName? token.text with
        | some direction => exact ih (.some ⟨keys, rfl⟩)
        | none => exact Keys.moved_stop moved _

theorem agree_check {read read' : Keys α} (same : read.Moved related read') {check : α → Except QueryError Unit}
    (each : ∀ key other, related key other → Agree (· = ·) (check key) (check other)) :
    Agree (Forall₂ related) (read.check check) (read'.check check) := by
  refine (agree_forM same.keys each).bind fun _ _ _ => ?_
  obtain ⟨keys, failure⟩ := read
  obtain ⟨keys', failure'⟩ := read'
  cases (show Option.Rel _ failure failure' from same.failure) with
  | none => exact .pure same.keys
  | some causes => exact .error causes

theorem agree_bindPath {schema : Schema} {type : RecordType} {token other : Token} (moved : token.Moved other) :
    Agree (· = ·) (bindPath schema type token) (bindPath schema type other) := by
  rw [bindPath, bindPath, moved.text]
  exact .bind_same _ fun route => .guard moved fun _ => .refl _

/-- Whether a path can be bound at all. -/
theorem agree_bound {schema : Schema} {type : RecordType} {token other : Token} (moved : token.Moved other) :
    Agree (· = ·) (bindPath schema type token >>= fun _ => pure ())
      (bindPath schema type other >>= fun _ => pure ()) := by
  refine (agree_bindPath moved).bind ?_
  rintro field _ rfl
  exact .refl _

theorem agree_bindGroupKeys {schema : Schema} {type : RecordType} {read read' : Keys Token}
    (same : read.Moved Token.Moved read') :
    Agree (· = ·) (bindGroupKeys schema type read) (bindGroupKeys schema type read') := by
  refine (agree_check same fun key other => agree_bound).bind ?_
  intro keys others same
  exact .pure (congrArg List.eraseDups (map_eq_of_forall₂ same fun token other moved => moved.text))

theorem agree_bindSortKeys {schema : Schema} {type : RecordType} {read read' : Keys (Token × Direction)}
    (same : read.Moved SortMoved read') :
    Agree (· = ·) (bindSortKeys schema type read) (bindSortKeys schema type read') := by
  refine (agree_check same fun key other moved => agree_bound moved.1).bind ?_
  intro keys others same
  refine .pure (map_eq_of_forall₂ same ?_)
  rintro ⟨token, direction⟩ ⟨other, _⟩ ⟨moved, rfl⟩
  exact congrArg (SortKey.mk · direction) moved.text

theorem agree_rowCount {keyword keyword' : Token} (starts : keyword.Moved keyword') (count : RowCount)
    (same : Forall₂ Token.Moved tokens others) :
    Agree (· = ·) (rowCount count keyword tokens) (rowCount count keyword' others) := by
  cases same with
  | nil => exact .atToken starts _
  | cons moved same =>
    rw [rowCount, rowCount, ← moved.text, ← moved.kind, isEmpty_eq_of_forall₂ same]
    split
    · split
      · exact .refl _
      · exact .atToken moved _
    · exact .atToken moved _

end Keys

end Query
end RecordQuery
