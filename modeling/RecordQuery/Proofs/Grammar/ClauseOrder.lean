import RecordQuery.Proofs.Grammar.Window
import RecordQuery.Token.Lexer

namespace RecordQuery

/-- A token is one keyword only. -/
theorem Token.not_isKeyword_of_isKeyword {token : Token} {keyword other : Text}
    (is : token.isKeyword keyword = true) (differs : keyword.sameFold other = false) :
    token.isKeyword other = false := by
  by_contra isOther
  simp only [isKeyword, Text.sameFold, Bool.not_eq_false, Bool.and_eq_true, beq_iff_eq] at is isOther
  rw [Text.sameFold, ← is.2, isOther.2, beq_self_eq_true] at differs
  cases differs

theorem Clause.rank_injective : Function.Injective Clause.rank := by
  intro clause other same
  cases clause <;> cases other <;> first | rfl | cases same

namespace Query

/-- The clause whose keyword a token is, if what follows it is what follows that keyword. -/
def keyword? (token : Token) (rest : List Token) : Option Clause :=
  match loneClause? token with
  | some clause => some clause
  | none => if rest.head?.any (·.isKeyword "BY") then byClause? token else none

/-- The clauses whose keywords stand outside of brackets, `depth` of which are open at first. -/
def outerClauses : Nat → List Token → List Clause
  | _, [] => []
  | depth, token :: rest =>
    (if depth = 0 then (keyword? token rest).toList else []) ++ outerClauses (openAfter token depth) rest

/-- Every clause comes after those before it. -/
def Ascending (clauses : List Clause) : Prop := (clauses.map Clause.rank).Pairwise (· < ·)

instance (clauses : List Clause) : Decidable (Ascending clauses) :=
  inferInstanceAs (Decidable ((clauses.map Clause.rank).Pairwise (· < ·)))

/-- The tokens in front of a window are the keyword of its clause. -/
def Window.IsHeaded (window : Window) : Prop :=
  (loneClause? window.keyword = some window.clause ∧ window.second = none) ∨
    (byClause? window.keyword = some window.clause ∧
      ∃ second, window.second = some second ∧ second.isKeyword "BY" = true)

theorem ascending_cons_cons :
    Ascending (first :: second :: clauses) ↔ first.rank < second.rank ∧ Ascending (second :: clauses) := by
  simp only [Ascending, List.map_cons, List.pairwise_cons, List.forall_mem_cons]
  constructor
  · rintro ⟨⟨less, -⟩, above, rest⟩
    exact ⟨less, above, rest⟩
  · rintro ⟨less, above, rest⟩
    exact ⟨⟨less, fun rank member => Nat.lt_trans less (above rank member)⟩, above, rest⟩

section Keyword

/-- No keyword of a clause is `BY`. -/
theorem keyword?_of_by (is : token.isKeyword "BY" = true) (rest : List Token) :
    byClause? token = none ∧ keyword? token rest = none := by
  have never (keyword : Text) (differs : Text.sameFold "BY" keyword = false) :
      token.isKeyword keyword = false := Token.not_isKeyword_of_isKeyword is differs
  have lone : loneClause? token = none := by
    simp [loneClause?, never "WHERE" (by decide), never "LIMIT" (by decide), never "OFFSET" (by decide)]
  have paired : byClause? token = none := by
    simp [byClause?, never "GROUP" (by decide), never "ORDER" (by decide)]
  refine ⟨paired, ?_⟩
  rw [keyword?, lone, paired, ite_self]

/-- A keyword that stands alone is not the first word of another. -/
theorem byClause?_of_lone (lone : loneClause? token = some clause) : byClause? token = none := by
  have single (keyword : Text) (is : token.isKeyword keyword = true)
      (group : keyword.sameFold "GROUP" = false) (order : keyword.sameFold "ORDER" = false) :
      byClause? token = none := by
    simp [byClause?, Token.not_isKeyword_of_isKeyword is group, Token.not_isKeyword_of_isKeyword is order]
  unfold loneClause? at lone
  split at lone
  · rename_i is
    exact single _ is (by decide) (by decide)
  · split at lone
    · rename_i is
      exact single _ is (by decide) (by decide)
    · split at lone
      · rename_i is
        exact single _ is (by decide) (by decide)
      · cases lone

theorem byClause?_of_kind (other : token.kind ≠ .word) : byClause? token = none := by
  have never : ∀ keyword, token.isKeyword keyword = false := fun _ => Token.not_isKeyword_of_kind other
  simp [byClause?, never]

/-- What stands at a token: a window opens there, or nothing does, or it is the first word of a keyword
that lacks its second. -/
theorem windowAt_cases (token : Token) (rest : List Token) :
    (∃ opened, windowAt token rest = .ok (some opened) ∧ keyword? token rest = some opened.clause ∧
      opened.IsHeaded) ∨
    (windowAt token rest = .ok none ∧ keyword? token rest = none ∧
      (rest = [] → byClause? token = none)) ∨
    (∃ error, windowAt token rest = .error error ∧ rest = [] ∧ byClause? token ≠ none) := by
  unfold windowAt keyword?
  cases lone : loneClause? token with
  | some clause => exact .inl ⟨_, rfl, rfl, .inl ⟨lone, rfl⟩⟩
  | none =>
    cases paired : byClause? token with
    | none => exact .inr (.inl ⟨rfl, by simp, fun _ => rfl⟩)
    | some clause =>
      cases rest with
      | nil => exact .inr (.inr ⟨_, rfl, rfl, by simp⟩)
      | cons next rest =>
        cases by_ : next.isKeyword "BY" with
        | true =>
          refine .inl ⟨⟨clause, token, some next, []⟩, by simp [by_], by simp [by_], ?_⟩
          exact .inr ⟨paired, next, rfl, by_⟩
        | false => exact .inr (.inl ⟨by simp [by_], by simp [by_], nofun⟩)

theorem keyword?_of_windowAt (opens : windowAt token rest = .ok (some opened)) :
    keyword? token rest = some opened.clause ∧ opened.IsHeaded := by
  rcases windowAt_cases token rest with ⟨other, found, known⟩ | ⟨found, -⟩ | ⟨_, found, -⟩
  · cases found.symm.trans opens
    exact known
  · cases found.symm.trans opens
  · cases found.symm.trans opens

theorem silent_of_windowAt (quiet : windowAt token rest = .ok none) :
    keyword? token rest = none ∧ (rest = [] → byClause? token = none) := by
  rcases windowAt_cases token rest with ⟨_, found, -⟩ | ⟨-, silent⟩ | ⟨_, found, -⟩
  · cases found.symm.trans quiet
  · exact silent
  · cases found.symm.trans quiet

theorem keyword?_of_append {rest : List Token} (silent : keyword? token (rest ++ after) = none) :
    keyword? token rest = none := by
  unfold keyword? at silent ⊢
  cases lone : loneClause? token with
  | some clause =>
    rw [lone] at silent
    cases silent
  | none =>
    rw [lone] at silent
    cases rest with
    | nil => rfl
    | cons next rest => exact silent

/-- A keyword opens its clause and no other. -/
theorem outerClauses_of_opened (opens : windowAt token (opened.second.toList ++ rest) = .ok (some opened)) :
    outerClauses 0 (token :: (opened.second.toList ++ rest)) = opened.clause :: outerClauses 0 rest := by
  obtain ⟨word, -, -, -⟩ := windowAt_eq_some opens
  obtain ⟨known, headed⟩ := keyword?_of_windowAt opens
  rcases headed with ⟨-, alone⟩ | ⟨-, second, paired, by_⟩
  · rw [alone] at known ⊢
    simp only [Option.toList_none, List.nil_append] at known ⊢
    simp [outerClauses, openAfter, word, known]
  · rw [paired] at known ⊢
    simp only [Option.toList_some, List.singleton_append] at known ⊢
    simp [outerClauses, openAfter, word, Token.kind_of_isKeyword by_, known, (keyword?_of_by by_ rest).2]

/-- No clause opens in tokens that belong to one. -/
theorem outerClauses_of_unbroken (unbroken : Unbroken after depth own) :
    outerClauses depth (own ++ after) = outerClauses 0 after ∧ outerClauses depth own = [] := by
  induction own generalizing depth with
  | nil =>
    cases unbroken
    exact ⟨rfl, rfl⟩
  | cons token own ih =>
    obtain ⟨-, quiet, later⟩ := unbroken
    obtain ⟨whole, alone⟩ := ih later
    by_cases outside : depth = 0
    · have silent := (silent_of_windowAt (quiet outside)).1
      simp only [List.cons_append, outerClauses, if_pos outside, silent, keyword?_of_append silent,
        Option.toList_none, List.nil_append]
      exact ⟨whole, alone⟩
    · simp only [List.cons_append, outerClauses, if_neg outside, List.nil_append]
      exact ⟨whole, alone⟩

end Keyword

section Found

variable {found : List Window}

theorem Windows.flatMap_all (listed : Windows seen tokens found) : found.flatMap Window.all = tokens := by
  induction listed with
  | nil => rfl
  | cons opens _ _ _ ih =>
    obtain ⟨-, same, -, -⟩ := windowAt_eq_some opens
    simp [Window.all, same, ih]

theorem Windows.clauses (listed : Windows seen tokens found) :
    found.map (·.clause) = outerClauses 0 tokens := by
  induction listed with
  | nil => rfl
  | cons opens _ unbroken _ ih =>
    rw [outerClauses_of_opened opens, (outerClauses_of_unbroken unbroken).1, List.map_cons, ih]

theorem Windows.each (listed : Windows seen tokens found) : ∀ window ∈ found, window.IsHeaded ∧
    Balanced 0 window.tokens ∧ outerClauses 0 window.tokens = [] := by
  induction listed with
  | nil => exact List.forall_mem_nil _
  | cons opens _ unbroken _ ih =>
    refine List.forall_mem_cons.mpr ⟨⟨(keyword?_of_windowAt opens).2, Surface.balanced unbroken, ?_⟩, ih⟩
    exact (outerClauses_of_unbroken unbroken).2

end Found

section Success

/-- The last token is no keyword that lacks its second word. -/
def Complete (tokens : List Token) : Prop := ∀ last ∈ tokens.getLast?, byClause? last = none

theorem complete_cons (whole : rest = [] → byClause? token = none) :
    Complete (token :: rest) ↔ Complete rest := by
  cases rest with
  | nil => simp [Complete, whole rfl]
  | cons next rest => rw [Complete, Complete, List.getLast?_cons_cons]

/-- Behind its keyword a clause is as balanced and complete as with it. -/
theorem opened_iff (opens : windowAt token (opened.second.toList ++ rest) = .ok (some opened)) :
    (Balanced 0 (token :: (opened.second.toList ++ rest)) ↔ Balanced 0 rest) ∧
      (Complete (token :: (opened.second.toList ++ rest)) ↔ Complete rest) := by
  obtain ⟨word, same, -, -⟩ := windowAt_eq_some opens
  rcases (keyword?_of_windowAt opens).2 with ⟨lone, alone⟩ | ⟨-, second, paired, by_⟩
  · rw [same] at lone
    rw [alone]
    refine ⟨?_, complete_cons fun _ => byClause?_of_lone lone⟩
    simp [Balanced, openAfter, word]
  · have behind : Complete (token :: second :: rest) ↔ Complete (second :: rest) :=
      complete_cons fun nothing => absurd nothing (List.cons_ne_nil second rest)
    rw [paired]
    refine ⟨?_, behind.trans (complete_cons fun _ => (keyword?_of_by by_ rest).1)⟩
    simp [Balanced, openAfter, word, Token.kind_of_isKeyword by_]

/-- Brackets are balanced, the clauses outside of them ascend from the given one, and no keyword lacks its
second word. -/
@[mk_iff]
structure Orderly (last : Clause) (depth : Nat) (tokens : List Token) : Prop where
  balanced : Balanced depth tokens
  ascending : Ascending (last :: outerClauses depth tokens)
  complete : Complete tokens

theorem orderly_nil : Orderly last depth [] ↔ depth = 0 := by
  constructor
  · intro orderly
    exact orderly.balanced
  · intro closed
    exact ⟨closed, by simp [Ascending, outerClauses], by simp [Complete]⟩

/-- A token that stays in its clause changes nothing. -/
theorem orderly_keep (open_ : ¬ (token.kind = .closing ∧ depth = 0))
    (quiet : depth = 0 → windowAt token rest = .ok none) :
    Orderly last depth (token :: rest) ↔ Orderly last (openAfter token depth) rest := by
  have clauses : outerClauses depth (token :: rest) = outerClauses (openAfter token depth) rest := by
    by_cases outside : depth = 0
    · simp [outerClauses, outside, (silent_of_windowAt (quiet outside)).1]
    · simp [outerClauses, outside]
  have complete (balanced : Balanced (openAfter token depth) rest) :
      Complete (token :: rest) ↔ Complete rest := by
    refine complete_cons ?_
    rintro rfl
    by_cases outside : depth = 0
    · exact (silent_of_windowAt (quiet outside)).2 rfl
    · -- The last token closes the last bracket, so it is no word.
      have closed : openAfter token depth = 0 := balanced
      apply byClause?_of_kind
      intro word
      simp only [openAfter, word, reduceCtorEq, ↓reduceIte] at closed
      exact outside closed
  constructor
  · rintro ⟨⟨-, balanced⟩, ascending, whole⟩
    exact ⟨balanced, clauses ▸ ascending, (complete balanced).mp whole⟩
  · rintro ⟨balanced, ascending, whole⟩
    exact ⟨⟨open_, balanced⟩, clauses ▸ ascending, (complete balanced).mpr whole⟩

/-- A clause that opens comes after the last one. -/
theorem orderly_open (opens : windowAt token (opened.second.toList ++ rest) = .ok (some opened)) :
    Orderly last 0 (token :: (opened.second.toList ++ rest)) ↔
      last.rank < opened.clause.rank ∧ Orderly opened.clause 0 rest := by
  obtain ⟨balanced, complete⟩ := opened_iff opens
  constructor
  · rintro ⟨closed, ascending, whole⟩
    rw [outerClauses_of_opened opens, ascending_cons_cons] at ascending
    exact ⟨ascending.1, balanced.mp closed, ascending.2, complete.mp whole⟩
  · rintro ⟨later, closed, ascending, whole⟩
    refine ⟨balanced.mpr closed, ?_, complete.mpr whole⟩
    rw [outerClauses_of_opened opens, ascending_cons_cons]
    exact ⟨later, ascending⟩

/-- After clauses of which the last one is the latest, a clause may come that is later still. -/
theorem checkOrder_eq_ok_iff_lt (latest : ∀ other ∈ seen, other.rank < last.rank) :
    checkOrder (last :: seen) opened = .ok () ↔ last.rank < opened.clause.rank := by
  rw [checkOrder_eq_ok_iff]
  constructor
  · rintro ⟨fresh, after⟩
    refine Nat.lt_of_le_of_ne (after last rfl) fun same => fresh ?_
    exact Clause.rank_injective same ▸ .head _
  · intro later
    refine ⟨?_, ?_⟩
    · intro again
      rcases List.mem_cons.mp again with same | before
      · exact Nat.lt_irrefl _ (same ▸ later)
      · exact Nat.lt_asymm later (latest _ before)
    · rintro _ ⟨rfl⟩
      exact Nat.le_of_lt later

/-- The windows after a clause are found just if the tokens are orderly. -/
theorem exists_windowsFrom_iff (latest : ∀ other ∈ seen, other.rank < last.rank) :
    (∃ result, windowsFrom ending (last :: seen) depth tokens = .ok result) ↔ Orderly last depth tokens := by
  -- A clause may open with two tokens, so the induction is on how many are left.
  induction size : tokens.length using Nat.strongRecOn generalizing tokens seen last depth with
  | ind size ih =>
    subst size
    cases tokens with
    | nil =>
      rw [windowsFrom, orderly_nil]
      by_cases closed : depth = 0 <;> simp [closed]
    | cons token rest =>
      by_cases stray : token.kind = .closing ∧ depth = 0
      · rw [windowsFrom]
        simp only [stray.1, stray.2, reduceCtorEq, ↓reduceIte, exists_false, false_iff]
        intro orderly
        exact orderly.balanced.1 ⟨stray.1, rfl⟩
      by_cases quiet : depth = 0 → windowAt token rest = .ok none
      · rw [windowsFrom_keep stray quiet, orderly_keep stray quiet, ← ih rest.length (by simp) latest rfl]
        simp only [map_eq_ok]
        constructor
        · rintro ⟨_, result, made, -⟩
          exact ⟨result, made⟩
        · rintro ⟨result, made⟩
          exact ⟨_, result, made, rfl⟩
      obtain ⟨rfl, loud⟩ := Classical.not_imp.mp quiet
      rcases windowAt_cases token rest with ⟨opened, opens, -⟩ | ⟨silent, -⟩ | ⟨error, refused, rfl, torn⟩
      · obtain ⟨-, -, -, rest, rfl⟩ := windowAt_eq_some opens
        have inner (later : last.rank < opened.clause.rank) :
            (∃ result, windowsFrom ending (opened.clause :: last :: seen) 0 rest = .ok result) ↔
              Orderly opened.clause 0 rest := by
          have shorter : rest.length < (token :: (opened.second.toList ++ rest)).length := by
            rw [List.length_cons, List.length_append]
            omega
          refine ih rest.length shorter (List.forall_mem_cons.mpr ⟨later, ?_⟩) rfl
          exact fun other before => Nat.lt_trans (latest other before) later
        rw [windowsFrom_open opens, orderly_open opens, ← checkOrder_eq_ok_iff_lt latest]
        constructor
        · rintro ⟨result, made⟩
          obtain ⟨_, ordered, made⟩ := bind_eq_ok.mp made
          obtain ⟨found, made, -⟩ := bind_eq_ok.mp made
          exact ⟨ordered, (inner ((checkOrder_eq_ok_iff_lt latest).mp ordered)).mp ⟨found, made⟩⟩
        · rintro ⟨ordered, orderly⟩
          obtain ⟨found, made⟩ := (inner ((checkOrder_eq_ok_iff_lt latest).mp ordered)).mpr orderly
          exact ⟨_, bind_eq_ok.mpr ⟨(), ordered, bind_eq_ok.mpr ⟨found, made, rfl⟩⟩⟩
      · exact absurd silent loud
      · rw [windowsFrom_refused refused]
        simp only [reduceCtorEq, exists_false, false_iff]
        intro orderly
        exact torn (orderly.complete token rfl)

/-- The first token, if there is one, is the keyword of a clause. -/
def startsClause : List Token → Bool
  | [] => true
  | token :: rest => (keyword? token rest).isSome

theorem exists_windows_iff : (∃ found, windows ending tokens = .ok found) ↔
    startsClause tokens = true ∧ Balanced 0 tokens ∧ Ascending (outerClauses 0 tokens) ∧ Complete tokens := by
  cases tokens with
  | nil => simp [windows, startsClause, Balanced, outerClauses, Ascending, Complete]
  | cons token rest =>
    rw [startsClause]
    rcases windowAt_cases token rest with ⟨opened, opens, known, -⟩ | ⟨quiet, silent, -⟩ |
      ⟨error, refused, rfl, torn⟩
    · obtain ⟨-, -, -, rest, rfl⟩ := windowAt_eq_some opens
      obtain ⟨balanced, complete⟩ := opened_iff opens
      rw [known, outerClauses_of_opened opens, balanced, complete, Option.isSome_some, and_iff_right rfl,
        ← orderly_iff, ← exists_windowsFrom_iff (List.forall_mem_nil _), windows, opens, ok_bind]
      simp only [List.drop_left]
      constructor
      · rintro ⟨found, made⟩
        obtain ⟨result, made, -⟩ := bind_eq_ok.mp made
        exact ⟨result, made⟩
      · rintro ⟨result, made⟩
        exact ⟨_, bind_eq_ok.mpr ⟨result, made, rfl⟩⟩
    · rw [windows, quiet]
      simp [silent, bind, Except.bind]
    · rw [windows, refused]
      simp [Complete, torn, bind, Except.bind]

end Success

/-- The windows are those of the clauses that open outside of brackets from a place in the tokens on. They
ascend, and with their keywords they make up the tokens from there on. -/
structure Canonical (tokens : List Token) (start : Nat) (found : List Window) : Prop where
  joined : found.flatMap Window.all = tokens.drop start
  clauses : found.map (·.clause) = outerClauses 0 (tokens.drop start)
  ascending : Ascending (found.map (·.clause))
  headed : ∀ window ∈ found, window.IsHeaded
  placed : ∀ window ∈ found, ∃ first last, start ≤ first ∧ first ≤ last ∧ last ≤ tokens.length ∧
    window.tokens = (tokens.take last).drop first
  balanced : ∀ window ∈ found, Balanced 0 window.tokens
  unbroken : ∀ window ∈ found, outerClauses 0 window.tokens = []

/-- A window is a slice of the tokens. -/
theorem exists_slice {tokens : List Token} {found : List Window}
    (joined : found.flatMap Window.all = tokens.drop start) (member : window ∈ found) :
    ∃ first last, start ≤ first ∧ first ≤ last ∧ last ≤ tokens.length ∧
      window.tokens = (tokens.take last).drop first := by
  obtain ⟨before, after, rfl⟩ := List.append_of_mem member
  let above := before.flatMap Window.all ++ window.keyword :: window.second.toList
  have whole : tokens.drop start = above ++ (window.tokens ++ after.flatMap Window.all) := by
    simp [above, ← joined, Window.all]
  have length := congrArg List.length whole
  have positive : 0 < above.length := by
    simp only [above, List.length_append, List.length_cons]
    omega
  simp only [List.length_drop, List.length_append] at length
  refine ⟨start + above.length, start + above.length + window.tokens.length, by omega, by omega, by omega, ?_⟩
  rw [List.drop_take, ← List.drop_drop, whole, List.drop_left, Nat.add_sub_cancel_left, List.take_left]

/-- Tokens from a place on are cut into windows just if brackets are balanced, the clauses outside of them
ascend, the first token opens one, and no keyword lacks its second word; the windows are canonical. -/
theorem windows_canonical (ending : Token) (tokens : List Token) (start : Nat) :
    (∀ found, windows ending (tokens.drop start) = .ok found → Canonical tokens start found) ∧
    ((∃ found, windows ending (tokens.drop start) = .ok found) ↔
      startsClause (tokens.drop start) = true ∧ Balanced 0 (tokens.drop start) ∧
        Ascending (outerClauses 0 (tokens.drop start)) ∧ Complete (tokens.drop start)) := by
  refine ⟨?_, exists_windows_iff⟩
  intro found read
  have listed := windows_eq_ok_iff.mp read
  obtain ⟨-, -, ascending, -⟩ := exists_windows_iff.mp ⟨found, read⟩
  exact
    { joined := listed.flatMap_all
      clauses := listed.clauses
      ascending := listed.clauses ▸ ascending
      headed := fun window member => (listed.each window member).1
      placed := fun window member => exists_slice listed.flatMap_all member
      balanced := fun window member => (listed.each window member).2.1
      unbroken := fun window member => (listed.each window member).2.2 }

/-- The tokens of a text. -/
def tokensOf (text : Text) : List Token := ((Lexer.start text []).run.toOption.map (·.1)).getD []

/-- The limit in brackets is part of the first clause. -/
def gateTokens : List Token := tokensOf
  "SELECT name FROM Flight WHERE gate IN (SELECT id FROM Gate LIMIT 3) ORDER BY name LIMIT 5"

theorem gates_canonical :
    (∃ found, windows .unplacedEnd (gateTokens.drop 4) = .ok found ∧
      found.map (fun window => (window.clause, window.tokens.length)) =
        [(.where_, 10), (.orderBy, 1), (.limit, 1)] ∧
      Canonical gateTokens 4 found) ∧
    ¬ ∃ found, windows .unplacedEnd (tokensOf "LIMIT 5 ORDER BY name") = .ok found := by
  obtain ⟨canonical, -⟩ := windows_canonical .unplacedEnd gateTokens 4
  have found : ((windows .unplacedEnd (gateTokens.drop 4)).map fun found =>
      found.map fun window => (window.clause, window.tokens.length)) =
        .ok [(.where_, 10), (.orderBy, 1), (.limit, 1)] := by decide +kernel
  obtain ⟨windows, read, shape⟩ := map_eq_ok.mp found
  refine ⟨⟨windows, read, shape, canonical windows read⟩, ?_⟩
  rw [← List.drop_zero (l := tokensOf _), (windows_canonical .unplacedEnd _ 0).2]
  rintro ⟨-, -, ascending, -⟩
  revert ascending
  decide +kernel

end Query
end RecordQuery
