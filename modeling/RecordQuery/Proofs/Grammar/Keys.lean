import RecordQuery.Proofs.Grammar.Tokens
import RecordQuery.Query.Keys

namespace RecordQuery.Query

theorem rowCount_eq_ok_iff : rowCount count keyword tokens = .ok n ↔
    ∃ token, tokens = [token] ∧ token.kind = .word ∧ Text.toInt? token.text = some n ∧
      0 ≤ n ∧ n < 0x8000000000000000 := by
  cases tokens with
  | nil => simp [rowCount]
  | cons token rest =>
    rw [rowCount]
    cases number : Text.toInt? token.text with
    | none => simp [number]
    | some m =>
      have only : (∃ first, token :: rest = [first] ∧ first.kind = .word ∧
          Text.toInt? first.text = some n ∧ 0 ≤ n ∧ n < 0x8000000000000000) ↔
          m = n ∧ rest.isEmpty ∧ token.kind = .word ∧ 0 ≤ m ∧ m < 0x8000000000000000 := by
        constructor
        · rintro ⟨first, same, word, again, bounds⟩
          cases same
          cases number.symm.trans again
          exact ⟨rfl, rfl, word, bounds⟩
        · rintro ⟨rfl, empty, word, bounds⟩
          rw [List.isEmpty_iff.mp empty]
          exact ⟨token, rfl, word, number, bounds⟩
      rw [only]
      by_cases fits : rest.isEmpty ∧ token.kind = .word ∧ 0 ≤ m ∧ m < 0x8000000000000000
      · simp only [if_pos fits, Except.ok.injEq, iff_self_and]
        exact fun _ => fits
      · simp only [fits, ↓reduceIte, reduceCtorEq, and_false]

namespace Keys

variable {α : Type}

theorem done_eq_iff : (done : Keys α) = ⟨listed, none⟩ ↔ listed = [] := by
  simp [done, eq_comm]

theorem stop_ne (token : Token) (cause : Cause) (listed : List α) : stop token cause ≠ ⟨listed, none⟩ := by
  simp [stop]

theorem cons_eq_iff {key : α} {rest : Keys α} : cons key rest = ⟨listed, none⟩ ↔
    ∃ others, listed = key :: others ∧ rest = ⟨others, none⟩ := by
  obtain ⟨others, failure⟩ := rest
  constructor
  · intro same
    cases same
    exact ⟨others, rfl, rfl⟩
  · rintro ⟨_, rfl, same⟩
    cases same
    rfl

end Keys

/-- A grouping key is a word. -/
inductive KeyPhrase : List Token → Token → Prop where
  | word {key : Token} (kind : key.kind = .word) : KeyPhrase [key] key

/-- A sort key is a word and perhaps its direction; without one the order ascends. -/
inductive SortPhrase : List Token → Token × Direction → Prop where
  | plain {key : Token} (kind : key.kind = .word) : SortPhrase [key] (key, .asc)
  | directed {key word : Token} {direction : Direction} (kind : key.kind = .word) (directs : word.kind = .word)
      (named : Direction.ofName? word.text = some direction) : SortPhrase [key, word] (key, direction)

section Group

variable {tokens : List Token} {keys : List Token} {last : Token}

/-- Where a key must come, a word comes and is a key. -/
theorem groupKeysFrom_key : groupKeysFrom last false tokens = ⟨keys, none⟩ ↔
    ∃ key rest others, tokens = key :: rest ∧ key.kind = .word ∧ keys = key :: others ∧
      groupKeysFrom key true rest = ⟨others, none⟩ := by
  cases tokens with
  | nil => simp [groupKeysFrom, Keys.stop_ne]
  | cons token rest =>
    rw [groupKeysFrom]
    by_cases comma : token.kind = .comma
    · simp [comma, Keys.stop_ne]
    · by_cases word : token.kind = .word
      · simp [word, Keys.cons_eq_iff, and_assoc]
      · simp [comma, word, Keys.stop_ne]

/-- After a key the tokens end or a comma comes. -/
theorem groupKeysFrom_comma : groupKeysFrom last true tokens = ⟨keys, none⟩ ↔
    (tokens = [] ∧ keys = []) ∨ ∃ comma rest, tokens = comma :: rest ∧ comma.kind = .comma ∧
      groupKeysFrom comma false rest = ⟨keys, none⟩ := by
  cases tokens with
  | nil => simp [groupKeysFrom, Keys.done_eq_iff]
  | cons token rest =>
    rw [groupKeysFrom]
    by_cases comma : token.kind = .comma
    · simp [comma, and_assoc]
    · simp [comma, Keys.stop_ne]

theorem groupKeysFrom_step : groupKeysFrom last false tokens = ⟨keys, none⟩ ↔
    ∃ phrase key after, tokens = phrase ++ after ∧ KeyPhrase phrase key ∧
      Continues (fun rest others => ∃ last, groupKeysFrom last false rest = ⟨others, none⟩) key after keys := by
  rw [groupKeysFrom_key]
  constructor
  · rintro ⟨key, rest, others, rfl, word, rfl, read⟩
    refine ⟨[key], key, rest, rfl, .word word, ?_⟩
    rcases groupKeysFrom_comma.mp read with ⟨rfl, rfl⟩ | ⟨comma, rest, rfl, separator, read⟩
    · exact .inl ⟨rfl, rfl⟩
    · exact .inr ⟨comma, rest, others, rfl, separator, rfl, comma, read⟩
  · rintro ⟨_, key, after, rfl, ⟨word⟩, next⟩
    rcases next with ⟨rfl, rfl⟩ | ⟨comma, rest, others, rfl, separator, rfl, last, read⟩
    · exact ⟨key, [], [], rfl, word, rfl, rfl⟩
    · refine ⟨key, comma :: rest, others, rfl, word, rfl, groupKeysFrom_comma.mpr ?_⟩
      exact .inr ⟨comma, rest, rfl, separator, groupKeysFrom_key.mpr (groupKeysFrom_key.mp read)⟩

/-- Grouping keys are read exactly from words with commas between them. -/
theorem groupKeys_eq_iff : groupKeys keyword tokens = ⟨keys, none⟩ ↔ Listed KeyPhrase tokens keys := by
  have reads : groupKeys keyword tokens = ⟨keys, none⟩ ↔
      ∃ last, groupKeysFrom last false tokens = ⟨keys, none⟩ := by
    rw [groupKeys]
    split
    · rename_i empty
      simp [List.isEmpty_iff.mp empty, groupKeysFrom, Keys.stop_ne]
    · constructor
      · exact fun read => ⟨keyword, read⟩
      · exact fun ⟨_, read⟩ => groupKeysFrom_key.mpr (groupKeysFrom_key.mp read)
  rw [reads]
  apply listed_iff_of_step fun tokens keys => ∃ last, groupKeysFrom last false tokens = ⟨keys, none⟩
  intro tokens keys
  constructor
  · exact fun ⟨_, read⟩ => groupKeysFrom_step.mp read
  · exact fun taken => ⟨keyword, groupKeysFrom_step.mpr taken⟩

end Group

section Order

variable {tokens : List Token} {keys : List (Token × Direction)} {next : Token}

/-- Where a key must come, a word comes, and its direction is open. -/
theorem orderKeys_key : orderKeys next none tokens = ⟨keys, none⟩ ↔
    ∃ key rest, tokens = key :: rest ∧ key.kind = .word ∧
      orderKeys next (some ⟨key, none⟩) rest = ⟨keys, none⟩ := by
  cases tokens with
  | nil => simp [orderKeys, Keys.stop_ne]
  | cons token rest =>
    rw [orderKeys.eq_def]
    by_cases comma : token.kind = .comma
    · simp [comma, Keys.stop_ne]
    · by_cases word : token.kind = .word
      · simp [word, and_assoc]
      · simp [comma, word, Keys.stop_ne]

/-- After a key the tokens end, a comma comes, or a direction if it is open. -/
theorem orderKeys_pending {pending : PendingKey} : orderKeys next (some pending) tokens = ⟨keys, none⟩ ↔
    Continues (fun rest others => orderKeys next none rest = ⟨others, none⟩) pending.finish tokens keys ∨
      ∃ word rest direction, tokens = word :: rest ∧ word.kind = .word ∧ pending.direction = none ∧
        Direction.ofName? word.text = some direction ∧
        orderKeys next (some ⟨pending.token, some direction⟩) rest = ⟨keys, none⟩ := by
  obtain ⟨key, open_⟩ := pending
  rw [Continues]
  cases tokens with
  | nil => simp [orderKeys, Keys.cons_eq_iff, Keys.done_eq_iff]
  | cons token rest =>
    rw [orderKeys.eq_def]
    by_cases comma : token.kind = .comma
    · simp [comma, Keys.cons_eq_iff, and_assoc]
    · by_cases word : token.kind = .word
      · cases open_ with
        | none =>
          cases named : Direction.ofName? token.text with
          | none => simp [word, named, Keys.stop_ne]
          | some direction => simp [word, named, and_assoc]
        | some direction => simp [word, Keys.stop_ne]
      · simp [comma, word, Keys.stop_ne]

/-- Once the direction is given, nothing else belongs to a key. -/
theorem orderKeys_directed : orderKeys next (some ⟨key, some direction⟩) tokens = ⟨keys, none⟩ ↔
    Continues (fun rest others => orderKeys next none rest = ⟨others, none⟩) (key, direction) tokens keys := by
  rw [orderKeys_pending]
  simp [PendingKey.finish]

theorem orderKeys_step : orderKeys next none tokens = ⟨keys, none⟩ ↔
    ∃ phrase key after, tokens = phrase ++ after ∧ SortPhrase phrase key ∧
      Continues (fun rest others => orderKeys next none rest = ⟨others, none⟩) key after keys := by
  rw [orderKeys_key]
  constructor
  · rintro ⟨key, rest, rfl, kind, read⟩
    rcases orderKeys_pending.mp read with continues | ⟨word, rest, direction, rfl, directs, -, named, read⟩
    · exact ⟨[key], _, rest, rfl, .plain kind, continues⟩
    · exact ⟨[key, word], _, rest, rfl, .directed kind directs named, orderKeys_directed.mp read⟩
  · rintro ⟨_, _, after, rfl, entry, continues⟩
    cases entry with
    | @plain key kind => exact ⟨key, after, rfl, kind, orderKeys_pending.mpr (.inl continues)⟩
    | @directed key word direction kind directs named =>
      refine ⟨key, word :: after, rfl, kind, orderKeys_pending.mpr (.inr ?_)⟩
      exact ⟨word, after, direction, rfl, directs, rfl, named, orderKeys_directed.mpr continues⟩

/-- Sort keys are read exactly from words with commas between them, each with its direction or without one. -/
theorem orderKeys_eq_iff : orderKeys next none tokens = ⟨keys, none⟩ ↔ Listed SortPhrase tokens keys :=
  listed_iff_of_step (fun tokens keys => orderKeys next none tokens = ⟨keys, none⟩) fun _ _ => orderKeys_step

end Order

end RecordQuery.Query
