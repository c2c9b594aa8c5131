import RecordQuery.Proofs.Grammar.Tokens
import RecordQuery.Proofs.Success
import RecordQuery.Query.Select

namespace RecordQuery.Query

/-- One entry: a word, or a function with its argument in brackets. -/
inductive ItemPhrase : List Token → SelectItem → Prop where
  | word {token : Token} (kind : token.kind = .word) (plain : token.isKeyword "FROM" = false) :
      ItemPhrase [token] (.ofWord token)
  | call {name opening argument closing : Token} {function : Aggregate} (kind : name.kind = .word)
      (plain : name.isKeyword "FROM" = false)
      (named : Aggregate.ofName? name.text = some function) (opens : opening.kind = .opening)
      (word : argument.kind = .word) (closes : closing.kind = .closing) :
      ItemPhrase [name, opening, argument, closing] (.ofCall function argument)

theorem ItemPhrase.balanced (entry : ItemPhrase phrase item) : Balanced 0 phrase := by
  cases entry with
  | word kind _ => simp [Balanced, openAfter, kind]
  | call kind _ _ opens word closes => simp [Balanced, openAfter, kind, opens, word, closes]

theorem calls?_eq_some : calls? token (some next) = some function ↔
    next.kind = .opening ∧ Aggregate.ofName? token.text = some function := by
  by_cases opens : next.kind = .opening <;> simp [calls?, opens]

/-- What the reader of select lists takes first. -/
theorem selectList_cons_eq_ok
    (listed : selectList ending place (token :: tokens) = .ok (items, rest)) :
    (place = .afterItem ∧ token.isKeyword "FROM" = true ∧ items = [] ∧ tokens = rest) ∨
    (place = .afterItem ∧ token.kind = .comma ∧
      selectList ending .afterComma tokens = .ok (items, rest)) ∨
    (place ≠ .afterItem ∧ ∃ phrase item after others, token :: tokens = phrase ++ after ∧
      ItemPhrase phrase item ∧ items = item :: others ∧
      selectList ending .afterItem after = .ok (others, rest)) := by
  rw [selectList.eq_def] at listed
  simp only at listed
  split at listed
  · rename_i from_
    cases place with
    | first => cases listed
    | afterComma => cases listed
    | afterItem =>
      cases listed
      exact .inl ⟨rfl, from_, rfl, rfl⟩
  · rename_i notFrom
    split at listed
    · rename_i comma
      split at listed
      · rename_i same
        exact .inr (.inl ⟨same, comma, listed⟩)
      · cases listed
    · split at listed
      · cases listed
      · rename_i ready
        refine .inr (.inr ⟨ready, ?_⟩)
        split at listed
        · cases listed
        · split at listed
          · cases listed
          · rename_i word
            simp only [ne_eq, Decidable.not_not, Bool.not_eq_true] at word notFrom
            split at listed
            · rename_i function opening argument closing after called
              split at listed
              · cases listed
              · split at listed
                · cases listed
                · rename_i argumentWord closes
                  simp only [ne_eq, Decidable.not_not] at argumentWord closes
                  obtain ⟨opens, named⟩ := calls?_eq_some.mp called
                  obtain ⟨⟨others, _⟩, read, same⟩ := bind_eq_ok.mp listed
                  cases pure_eq_ok.mp same
                  exact ⟨[token, opening, argument, closing], _, after, others, rfl,
                    .call word notFrom named opens argumentWord closes, rfl, read⟩
            · cases listed
            · cases listed
            · obtain ⟨⟨others, _⟩, read, same⟩ := bind_eq_ok.mp listed
              cases pure_eq_ok.mp same
              exact ⟨[token], _, _, others, rfl, .word word notFrom, rfl, read⟩

/-- The reader takes an entry, unless its word would be a call with what follows. -/
theorem selectList_item (ready : place ≠ .afterItem) (entry : ItemPhrase phrase item)
    (uncalled : ∀ next ∈ after.head?, next.kind ≠ .opening)
    (read : selectList ending .afterItem after = .ok (others, rest)) :
    selectList ending place (phrase ++ after) = .ok (item :: others, rest) := by
  cases entry with
  | @word token kind plain =>
    have noCall : calls? token after.head? = none := by
      cases head : after.head? with
      | none => rfl
      | some next => simp [calls?, uncalled next head]
    rw [List.singleton_append, selectList.eq_def]
    simp [plain, kind, ready, noCall, read, bind, Except.bind, pure, Except.pure]
  | @call name opening argument closing function kind plain named opens word closes =>
    have calls : calls? name (some opening) = some function := calls?_eq_some.mpr ⟨opens, named⟩
    rw [selectList.eq_def]
    simp [plain, kind, ready, calls, word, closes, read, bind, Except.bind, pure, Except.pure]

/-- A select list reads as its entries, and leaves what follows `FROM`. -/
theorem selectList_eq_ok_iff (ready : place ≠ .afterItem) :
    selectList ending place tokens = .ok (items, rest) ↔
      ∃ phrase from_, tokens = phrase ++ from_ :: rest ∧ from_.isKeyword "FROM" = true ∧
        Listed ItemPhrase phrase items := by
  constructor
  · -- An entry and a comma are at least two tokens, so the induction is on the number left.
    induction size : tokens.length using Nat.strongRecOn generalizing tokens items place with
    | ind size ih =>
      intro listed
      cases tokens with
      | nil => cases listed
      | cons token tokens =>
        rcases selectList_cons_eq_ok listed with ⟨same, _⟩ | ⟨same, _⟩ | ⟨_, first⟩
        · exact absurd same ready
        · exact absurd same ready
        obtain ⟨phrase, item, after, others, shape, entry, rfl, read⟩ := first
        cases after with
        | nil => cases read
        | cons next after =>
          rw [shape]
          rcases selectList_cons_eq_ok read with ⟨_, from_, rfl, rfl⟩ | ⟨_, comma, read⟩ | ⟨same, _⟩
          · exact ⟨phrase, next, rfl, from_, .one entry⟩
          · have fewer := congrArg List.length shape
            simp only [List.length_append, List.length_cons] at fewer size
            obtain ⟨more, from_, rfl, is, listed⟩ :=
              ih after.length (by omega) (by decide) rfl read
            exact ⟨phrase ++ next :: more, from_, by simp, is, .cons entry comma listed⟩
          · exact absurd rfl same
  · rintro ⟨phrase, from_, rfl, is, listed⟩
    induction listed generalizing place with
    | one entry =>
      apply selectList_item ready entry
      · simp [Token.kind_of_isKeyword is]
      · simp [selectList, is]
    | @cons phrase item comma tokens items entry separator more ih =>
      rw [List.append_assoc]
      apply selectList_item ready entry
      · simp [separator]
      · rw [List.cons_append, selectList.eq_def]
        have other : comma.isKeyword "FROM" = false :=
          Token.not_isKeyword_of_kind (by simp [separator])
        simp only [other, separator, Bool.false_eq_true, ↓reduceIte]
        exact ih (by decide)

theorem suffix_of_selectList (listed : selectList ending .first tokens = .ok (items, rest)) : rest <:+ tokens := by
  obtain ⟨phrase, from_, rfl, -⟩ := (selectList_eq_ok_iff (by decide)).mp listed
  exact (List.suffix_cons from_ rest).trans (List.suffix_append phrase _)

theorem Aggregate.ne_unnamed_of_ofName? (named : Aggregate.ofName? name = some function) :
    function ≠ .unnamed := by
  rintro rfl
  exact absurd (List.mem_of_find?_eq_some named) (by decide)

/-- Functions in a select list have names. -/
theorem ne_unnamed_of_listed (listed : Listed ItemPhrase phrase items)
    (member : .aggregate function token ∈ items) : function ≠ .unnamed := by
  obtain ⟨own, entry, -⟩ := listed.exists_of_mem member
  generalize same : SelectItem.aggregate function token = item at entry
  cases entry with
  | @word word kind plain =>
    unfold SelectItem.ofWord at same
    split at same <;> cases same
  | call kind plain named opens word closes =>
    cases same
    exact Aggregate.ne_unnamed_of_ofName? named

end RecordQuery.Query
