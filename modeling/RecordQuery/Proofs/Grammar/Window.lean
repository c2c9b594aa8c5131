import RecordQuery.Proofs.Grammar.Tokens
import RecordQuery.Proofs.Success
import RecordQuery.Query.Window

namespace RecordQuery.Query

/-- Every bracket is closed, and tokens outside of brackets satisfy `allowed` with what follows them,
`after` at the end. -/
def Surface (allowed : Token → List Token → Prop) (after : List Token) : Nat → List Token → Prop
  | depth, [] => depth = 0
  | depth, token :: rest =>
    ¬ (token.kind = .closing ∧ depth = 0) ∧ (depth = 0 → allowed token (rest ++ after)) ∧
      Surface allowed after (openAfter token depth) rest

/-- Tokens that belong to one clause: no other clause opens outside of brackets. -/
abbrev Unbroken (after : List Token) : Nat → List Token → Prop :=
  Surface (fun token rest => windowAt token rest = .ok none) after

/-- The windows of the tokens after clauses that have been seen, the last one first. -/
inductive Windows : List Clause → List Token → List Window → Prop where
  | nil {seen : List Clause} : Windows seen [] []
  | cons {seen : List Clause} {token : Token} {opened : Window} {own after : List Token}
      {later : List Window}
      (opens : windowAt token (opened.second.toList ++ (own ++ after)) = .ok (some opened))
      (ordered : checkOrder seen opened = .ok ()) (unbroken : Unbroken after 0 own)
      (more : Windows (opened.clause :: seen) after later) :
      Windows seen (token :: (opened.second.toList ++ (own ++ after)))
        ({ opened with tokens := own } :: later)

theorem windowAt_of_kind {token : Token} (other : token.kind ≠ .word) (rest : List Token) :
    windowAt token rest = .ok none := by
  have never : ∀ keyword, token.isKeyword keyword = false :=
    fun _ => Token.not_isKeyword_of_kind other
  simp [windowAt, loneClause?, byClause?, never]

/-- A clause opens with a keyword, and perhaps with `BY`. -/
theorem windowAt_eq_some (opens : windowAt token rest = .ok (some opened)) :
    token.kind = .word ∧ opened.keyword = token ∧ (∀ second ∈ opened.second, second.kind = .word) ∧
      ∃ after, rest = opened.second.toList ++ after := by
  have word : token.kind = .word := by
    by_contra other
    rw [windowAt_of_kind other] at opens
    cases opens
  refine ⟨word, ?_⟩
  unfold windowAt at opens
  split at opens
  · cases opens
    exact ⟨rfl, by simp, rest, rfl⟩
  · split at opens
    · cases opens
    · rename_i next after _
      split at opens
      · rename_i by_
        cases opens
        exact ⟨rfl, by simp [Token.kind_of_isKeyword by_], after, rfl⟩
      · cases opens
    · cases opens

theorem checkOrder_eq_ok_iff : checkOrder seen opened = .ok () ↔
    opened.clause ∉ seen ∧ ∀ last ∈ seen.head?, last.rank ≤ opened.clause.rank := by
  rw [checkOrder]
  by_cases again : opened.clause ∈ seen
  · simp [again]
  · cases seen with
    | nil => simp
    | cons last seen =>
      by_cases behind : opened.clause.rank < last.rank <;> simp_all

theorem Surface.balanced (surface : Surface allowed after depth tokens) :
    Balanced depth tokens := by
  induction tokens generalizing depth with
  | nil => exact surface
  | cons token tokens ih => exact ⟨surface.1, ih surface.2.2⟩

/-- What holds of two runs of tokens, of which the first closes its brackets, holds of both
together. -/
theorem surface_append_iff (balanced : Balanced depth tokens) :
    Surface allowed after depth (tokens ++ more) ↔
      Surface allowed (more ++ after) depth tokens ∧ Surface allowed after 0 more := by
  induction tokens generalizing depth with
  | nil =>
    cases balanced
    exact ⟨fun later => ⟨rfl, later⟩, fun both => both.2⟩
  | cons token tokens ih =>
    simp only [List.cons_append, Surface, ih balanced.2, List.append_assoc]
    tauto

/-- In brackets anything is allowed. -/
theorem surface_of_balanced {inner : List Token} (balanced : Balanced depth inner)
    (closes : closing.kind = .closing) : Surface allowed after (depth + 1) (inner ++ [closing]) := by
  induction inner generalizing depth with
  | nil =>
    cases balanced
    refine ⟨by simp, by simp, ?_⟩
    simp [Surface, openAfter, closes]
  | cons token inner ih =>
    refine ⟨by simp, by simp, ?_⟩
    rw [openAfter_add balanced.1]
    exact ih balanced.2

/-- A token stays in its clause if no clause opens there. -/
theorem windowsFrom_keep (open_ : ¬ (token.kind = .closing ∧ depth = 0))
    (quiet : depth = 0 → windowAt token tokens = .ok none) :
    windowsFrom ending seen depth (token :: tokens) =
      (windowsFrom ending seen (openAfter token depth) tokens).map fun (own, later) =>
        (token :: own, later) := by
  rw [windowsFrom]
  by_cases opening : token.kind = .opening
  · simp only [opening, ↓reduceIte, openAfter]
    rfl
  · by_cases closing : token.kind = .closing
    · have positive : depth ≠ 0 := fun zero => open_ ⟨closing, zero⟩
      simp only [closing, reduceCtorEq, ↓reduceIte, positive, openAfter]
      rfl
    · simp only [opening, closing, ↓reduceIte, openAfter]
      by_cases zero : depth = 0
      · simp only [zero, quiet zero, ne_eq, not_true_eq_false, ↓reduceIte]
        rfl
      · simp only [zero, ne_eq, not_false_eq_true, ↓reduceIte]
        rfl

/-- A clause that opens goes up to where the next one does. -/
theorem windowsFrom_open
    (opens : windowAt token (opened.second.toList ++ tokens) = .ok (some opened)) :
    windowsFrom ending seen 0 (token :: (opened.second.toList ++ tokens)) = do
      checkOrder seen opened
      let (own, later) ← windowsFrom ending (opened.clause :: seen) 0 tokens
      return ([], { opened with tokens := own } :: later) := by
  obtain ⟨word, -, -, -⟩ := windowAt_eq_some opens
  rw [windowsFrom]
  simp only [word, reduceCtorEq, ↓reduceIte, ne_eq, not_true_eq_false, opens]
  cases opened.second <;> simp

theorem windowsFrom_refused (refused : windowAt token tokens = .error error) :
    windowsFrom ending seen 0 (token :: tokens) = .error error := by
  have word : token.kind = .word := by
    by_contra other
    rw [windowAt_of_kind other] at refused
    cases refused
  rw [windowsFrom]
  simp only [word, reduceCtorEq, ↓reduceIte, ne_eq, not_true_eq_false, refused]

/-- What no clause opens in stays in the clause before. -/
theorem windowsFrom_append (unbroken : Unbroken after depth own)
    (read : windowsFrom ending seen 0 after = .ok ([], later)) :
    windowsFrom ending seen depth (own ++ after) = .ok (own, later) := by
  induction own generalizing depth with
  | nil =>
    cases unbroken
    exact read
  | cons token own ih =>
    rw [List.cons_append, windowsFrom_keep unbroken.1 unbroken.2.1, ih unbroken.2.2]
    rfl

theorem windowsFrom_of_windows (windows : Windows seen tokens later) :
    windowsFrom ending seen 0 tokens = .ok ([], later) := by
  induction windows with
  | nil => rfl
  | cons opens ordered inner more ih =>
    rw [windowsFrom_open opens, ordered]
    simp only [bind, Except.bind, windowsFrom_append inner ih]
    rfl

theorem windows_of_windowsFrom (read : windowsFrom ending seen depth tokens = .ok (own, later)) :
    ∃ after, tokens = own ++ after ∧ Unbroken after depth own ∧ Windows seen after later := by
  -- A clause may open with two tokens, so the induction is on how many are left.
  induction size : tokens.length using Nat.strongRecOn generalizing tokens seen depth own later with
  | ind size ih =>
    cases tokens with
    | nil =>
      rw [windowsFrom] at read
      split at read
      · rename_i zero
        cases read
        exact ⟨[], rfl, zero, .nil⟩
      · cases read
    | cons token tokens =>
      simp only [List.length_cons] at size
      by_cases stray : token.kind = .closing ∧ depth = 0
      · rw [windowsFrom] at read
        simp [stray.1, stray.2] at read
      by_cases quiet : depth = 0 → windowAt token tokens = .ok none
      · rw [windowsFrom_keep stray quiet] at read
        obtain ⟨⟨kept, _⟩, read, same⟩ := map_eq_ok.mp read
        cases same
        obtain ⟨after, rfl, unbroken, more⟩ := ih tokens.length (by omega) read rfl
        exact ⟨after, rfl, ⟨stray, quiet, unbroken⟩, more⟩
      obtain ⟨rfl, loud⟩ := Classical.not_imp.mp quiet
      cases found : windowAt token tokens with
      | error error =>
        rw [windowsFrom_refused found] at read
        cases read
      | ok opened =>
        cases opened with
        | none => exact absurd found loud
        | some opened =>
          obtain ⟨-, -, -, rest, rfl⟩ := windowAt_eq_some found
          rw [windowsFrom_open found] at read
          obtain ⟨_, ordered, read⟩ := bind_eq_ok.mp read
          obtain ⟨⟨inner, _⟩, inside, same⟩ := bind_eq_ok.mp read
          cases pure_eq_ok.mp same
          simp only [List.length_append] at size
          obtain ⟨after, rfl, unbroken, more⟩ := ih rest.length (by omega) inside rfl
          exact ⟨_, rfl, rfl, .cons found ordered unbroken more⟩

/-- The reader of clauses in the middle of one. -/
theorem windowsFrom_eq_ok_iff :
    windowsFrom ending seen depth tokens = .ok (own, later) ↔
      ∃ after, tokens = own ++ after ∧ Unbroken after depth own ∧ Windows seen after later := by
  constructor
  · exact windows_of_windowsFrom
  · rintro ⟨after, rfl, unbroken, more⟩
    exact windowsFrom_append unbroken (windowsFrom_of_windows more)

/-- The windows of a query are exactly those of its tokens. -/
theorem windows_eq_ok_iff : windows ending tokens = .ok found ↔ Windows [] tokens found := by
  cases tokens with
  | nil =>
    constructor
    · intro read
      cases read
      exact .nil
    · intro more
      cases more
      rfl
  | cons token tokens =>
    constructor
    · intro read
      rw [windows] at read
      obtain ⟨opened, opens, read⟩ := bind_eq_ok.mp read
      cases opened with
      | none => cases read
      | some opened =>
        obtain ⟨-, -, -, rest, rfl⟩ := windowAt_eq_some opens
        simp only [List.drop_left] at read
        obtain ⟨⟨own, later⟩, inside, same⟩ := bind_eq_ok.mp read
        cases pure_eq_ok.mp same
        obtain ⟨after, rfl, unbroken, more⟩ := windowsFrom_eq_ok_iff.mp inside
        exact .cons opens rfl unbroken more
    · intro more
      cases more with
      | @cons _ _ opened own after later opens _ unbroken more =>
        have read : windowsFrom ending [opened.clause] 0 (own ++ after) = .ok (own, later) :=
          windowsFrom_eq_ok_iff.mpr ⟨after, rfl, unbroken, more⟩
        rw [windows, opens]
        simp only [bind, Except.bind, List.drop_left, read]
        rfl

theorem balanced_of_words (words : ∀ token ∈ tokens, token.kind = .word) : Balanced 0 tokens :=
  balanced_of_no_bracket fun token member => by simp [words token member]

theorem Windows.balanced (found : Windows seen tokens listed) : Balanced 0 tokens := by
  induction found with
  | nil => rfl
  | @cons seen token opened own after later opens _ unbroken more ih =>
    obtain ⟨word, -, second, -⟩ := windowAt_eq_some opens
    have keywords : Balanced 0 (token :: opened.second.toList) :=
      balanced_of_words (by simpa [word] using second)
    exact keywords.append ((Surface.balanced unbroken).append ih)

/-- Any tokens start with the first clause. -/
theorem Windows.first (found : Windows seen (token :: tokens) listed) :
    ∃ opened own after later, windowAt token tokens = .ok (some opened) ∧
      tokens = opened.second.toList ++ (own ++ after) ∧
      listed = { opened with tokens := own } :: later ∧ checkOrder seen opened = .ok () ∧
      Unbroken after 0 own ∧ Windows (opened.clause :: seen) after later := by
  generalize shape : token :: tokens = whole at found
  cases found with
  | nil => cases shape
  | @cons _ _ opened own after later opens ordered unbroken more =>
    obtain ⟨rfl, rfl⟩ := List.cons.inj shape
    exact ⟨opened, own, after, later, opens, rfl, rfl, ordered, unbroken, more⟩

theorem Windows.unseen (found : Windows seen tokens listed) (member : window ∈ listed) :
    window.clause ∉ seen := by
  induction found with
  | nil => cases member
  | cons _ ordered _ _ ih =>
    rcases List.mem_cons.mp member with rfl | later
    · exact (checkOrder_eq_ok_iff.mp ordered).1
    · intro earlier
      exact ih later (.tail _ earlier)

/-- A clause comes once, so its window is the one that is found. -/
theorem Windows.window? (found : Windows seen tokens listed) (member : window ∈ listed)
    (ending : Token) : ∃ next, window? ending window.clause listed = some (window, next) := by
  induction found with
  | nil => cases member
  | @cons seen token opened own after later _ _ _ more ih =>
    rw [Query.window?]
    rcases List.mem_cons.mp member with rfl | inside
    · rw [if_pos rfl]
      exact ⟨_, rfl⟩
    · have other : opened.clause ≠ window.clause := by
        intro same
        exact more.unseen inside (same ▸ .head _)
      rw [if_neg other]
      exact ih inside

theorem mem_of_window? (found : window? ending clause listed = some (window, next)) :
    window ∈ listed ∧ window.clause = clause := by
  induction listed with
  | nil => cases found
  | cons first rest ih =>
    rw [window?] at found
    split at found
    · rename_i same
      cases found
      exact ⟨.head _, same⟩
    · obtain ⟨member, same⟩ := ih found
      exact ⟨.tail _ member, same⟩

/-- The tokens of a clause are tokens of the query. -/
theorem Windows.mem_tokens (found : Windows seen tokens listed) (member : window ∈ listed)
    (inside : token ∈ window.tokens) : token ∈ tokens := by
  induction found with
  | nil => cases member
  | cons _ _ _ _ ih =>
    rcases List.mem_cons.mp member with rfl | later
    · simp [inside]
    · simp [ih later]

end RecordQuery.Query
