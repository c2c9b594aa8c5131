import RecordQuery.Proofs.Print.Surface
import RecordQuery.Proofs.Text.Ascii

/-! The clauses of a query in canonical form are found again. Each clause reaches up to the next one
unless a name in it opens a clause of its own; where that happens, the query is refused. -/
namespace RecordQuery

open Query

theorem Token.isKeyword_of_lexeme {token : Token} {w : Text} (is : token.lexeme = Lexeme.word w)
    (keyword : Text) : token.isKeyword keyword = w.sameFold keyword := by
  obtain ⟨kind, text⟩ := Prod.mk.inj is
  simp [Token.isKeyword, kind, text]

/-- The keywords of clauses. -/
def clauseWords : List Text := ["WHERE", "LIMIT", "OFFSET", "GROUP", "ORDER", "BY"]

/-- A word that no clause opens with. -/
def Text.isQuiet (w : Text) : Bool := clauseWords.all fun keyword => !w.sameFold keyword

theorem Text.sameFold_of_isQuiet {w : Text} (quiet : w.isQuiet = true)
    (member : keyword ∈ clauseWords) : w.sameFold keyword = false := by
  simpa using List.all_eq_true.mp quiet keyword member

theorem windowAt_of_isQuiet {token : Token} (quiet : token.text.isQuiet = true)
    (rest : List Token) : windowAt token rest = .ok none := by
  have never : ∀ keyword ∈ clauseWords, token.isKeyword keyword = false := by
    intro keyword member
    simp [Token.isKeyword, Text.sameFold_of_isQuiet quiet member]
  simp [windowAt, loneClause?, byClause?, never _ (show Text.ofString "WHERE" ∈ clauseWords by decide),
    never _ (show Text.ofString "LIMIT" ∈ clauseWords by decide),
    never _ (show Text.ofString "OFFSET" ∈ clauseWords by decide),
    never _ (show Text.ofString "GROUP" ∈ clauseWords by decide),
    never _ (show Text.ofString "ORDER" ∈ clauseWords by decide)]

theorem Operator.isQuiet_symbol (operator : Operator) : operator.symbol.isQuiet = true := by
  cases operator with
  | compare comparator => cases comparator <;> decide
  | connect connective => cases connective <;> decide
  | _ => decide

theorem Direction.isQuiet_name (direction : Direction) : direction.name.isQuiet = true := by
  cases direction <;> decide

/-- A number is no word that starts with a letter or with an operator character. -/
theorem Text.sameFold_ofInt (n : Int) {w : Text}
    (starts : w.head?.any (fun c => c < 0x80 && 57 < foldCode c.toNat) = true) :
    (ofInt n).sameFold w = false := by
  obtain ⟨c, head, letter⟩ := (Option.any_eq_true _ _).mp starts
  obtain ⟨more, rfl⟩ := List.head?_eq_some_iff.mp head
  simp only [Bool.and_eq_true, decide_eq_true_eq] at letter
  have first : ∃ b rest, ofInt n = b :: rest ∧ b.toNat ≤ 57 := by
    cases n with
    | ofNat n =>
      obtain ⟨b, rest, shape⟩ := List.exists_cons_of_ne_nil (ofNat_ne_nil n)
      have digit := isDigit_of_mem_ofNat (n := n) (b := b) (by simp [shape])
      simp only [isDigit, Bool.and_eq_true, decide_eq_true_eq, UInt8.le_iff_toNat_le] at digit
      exact ⟨b, rest, shape, digit.2⟩
    | negSucc n => exact ⟨ascii '-', ofNat (n + 1), rfl, by decide⟩
  obtain ⟨b, rest, shape, small⟩ := first
  have fold : foldCode b.toNat = b.toNat := by
    rw [foldCode, if_pos (by omega), if_neg (by omega)]
  have low : b < 0x80 := UInt8.lt_iff_toNat_lt.mpr (by change b.toNat < 128; omega)
  rw [shape]
  exact sameFold_cons low letter.1 (by omega)

theorem Text.isQuiet_ofInt (n : Int) : (ofInt n).isQuiet = true := by
  have letters : ∀ keyword ∈ clauseWords,
      keyword.head?.any (fun c => c < 0x80 && 57 < foldCode c.toNat) = true := by
    decide +kernel
  rw [isQuiet, List.all_eq_true]
  intro keyword member
  rw [sameFold_ofInt n (letters keyword member)]
  rfl

theorem windowAt_symbol {token : Token} (symbol : token.IsSymbol) (rest : List Token) :
    windowAt token rest = .ok none := by
  obtain ⟨operator, text, _⟩ := symbol
  exact windowAt_of_isQuiet (text ▸ operator.isQuiet_symbol) rest

/-- The tokens start with the keywords of a clause and go on with the given ones. -/
def OpensClause (clause : Clause) (tokens : List Token) (lexemes : List Lexeme) : Prop :=
  ∃ token opened own, tokens = token :: (opened.second.toList ++ own) ∧ opened.clause = clause ∧
    own.map Token.lexeme = lexemes ∧
    windowAt token (opened.second.toList ++ own) = .ok (some opened)

theorem opensClause_lone {w : Text} {tokens : List Token}
    (lone : ∀ token : Token, token.lexeme = Lexeme.word w → loneClause? token = some clause)
    (same : tokens.map Token.lexeme = Lexeme.word w :: lexemes) :
    OpensClause clause tokens lexemes := by
  obtain ⟨token, own, rfl, is, rest⟩ := List.map_eq_cons_iff.mp same
  refine ⟨token, ⟨clause, token, none, []⟩, own, rfl, rfl, rest, ?_⟩
  simp [windowAt, lone token is]

theorem opensClause_by {w : Text} {tokens : List Token}
    (paired : ∀ token : Token, token.lexeme = Lexeme.word w →
      loneClause? token = none ∧ byClause? token = some clause)
    (same : tokens.map Token.lexeme = Lexeme.word w :: Lexeme.word "BY" :: lexemes) :
    OpensClause clause tokens lexemes := by
  obtain ⟨token, more, rfl, is, rest⟩ := List.map_eq_cons_iff.mp same
  obtain ⟨next, own, rfl, by_, last⟩ := List.map_eq_cons_iff.mp rest
  have keyword : next.isKeyword "BY" = true := by
    rw [Token.isKeyword_of_lexeme by_]
    decide
  refine ⟨token, ⟨clause, token, some next, []⟩, own, rfl, rfl, last, ?_⟩
  simp [windowAt, paired token is, keyword]

/-- The keywords of a clause open its window. -/
theorem opensClause_keywords {clause : Clause} {tokens : List Token}
    (same : tokens.map Token.lexeme = clause.keywords ++ lexemes) :
    OpensClause clause tokens lexemes := by
  cases clause with
  | where_ =>
    refine opensClause_lone (fun token is => ?_) same
    simp only [loneClause?, Token.isKeyword_of_lexeme is]
    decide
  | groupBy =>
    refine opensClause_by (fun token is => ?_) same
    simp only [loneClause?, byClause?, Token.isKeyword_of_lexeme is]
    decide
  | orderBy =>
    refine opensClause_by (fun token is => ?_) same
    simp only [loneClause?, byClause?, Token.isKeyword_of_lexeme is]
    decide
  | limit =>
    refine opensClause_lone (fun token is => ?_) same
    simp only [loneClause?, Token.isKeyword_of_lexeme is]
    decide
  | offset =>
    refine opensClause_lone (fun token is => ?_) same
    simp only [loneClause?, Token.isKeyword_of_lexeme is]
    decide

theorem checkOrder_of_rank (earlier : ∀ clause ∈ seen, clause.rank < opened.clause.rank) :
    checkOrder seen opened = .ok () := by
  rw [checkOrder_eq_ok_iff]
  constructor
  · intro member
    exact Nat.lt_irrefl _ (earlier _ member)
  · intro last first
    exact Nat.le_of_lt (earlier last (List.mem_of_mem_head? first))

/-- The window found for a clause holds what stands in it, if it is there. -/
def FindsClauses (own : Clause → Option (List Lexeme)) (order : List Clause)
    (found : List Window) : Prop :=
  ∀ ending clause, Option.Rel (fun (window, _) lexemes => window.tokens.map Token.lexeme = lexemes)
    (window? ending clause found) (if clause ∈ order then own clause else none)

theorem FindsClauses.skip {own : Clause → Option (List Lexeme)} (missing : own clause = none)
    (finds : FindsClauses own order found) : FindsClauses own (clause :: order) found := by
  intro ending other
  have later := finds ending other
  by_cases same : other = clause
  · subst same
    simpa [missing] using later
  · simpa [same] using later

theorem FindsClauses.cons {own : Clause → Option (List Lexeme)}
    (given : own window.clause = some (window.tokens.map Token.lexeme))
    (finds : FindsClauses own order found) :
    FindsClauses own (window.clause :: order) (window :: found) := by
  intro ending other
  have later := finds ending other
  rw [window?]
  by_cases same : window.clause = other
  · subst same
    simp [given]
  · simpa [same, Ne.symm same] using later

/-- Clauses none of which opens another one are found again. -/
theorem windows_of_clauses {own : Clause → Option (List Lexeme)} {tokens : List Token}
    (sorted : order.Pairwise fun clause later => clause.rank < later.rank)
    (unseen : ∀ clause ∈ seen, ∀ later ∈ order, clause.rank < later.rank)
    (unbroken : ∀ before clause later tokens after, order = before ++ clause :: later →
      own clause = some (tokens.map Token.lexeme) → after.map Token.lexeme = tailLexemes own later →
      Unbroken after 0 tokens)
    (same : tokens.map Token.lexeme = tailLexemes own order) :
    ∃ found, Windows seen tokens found ∧ FindsClauses own order found := by
  induction order generalizing seen tokens with
  | nil =>
    obtain rfl := List.map_eq_nil_iff.mp same
    exact ⟨[], .nil, fun _ _ => by simp [window?]⟩
  | cons clause order ih =>
    obtain ⟨earlier, ascending⟩ := List.pairwise_cons.mp sorted
    have later : ∀ before other after tokens rest, order = before ++ other :: after →
        own other = some (tokens.map Token.lexeme) → rest.map Token.lexeme = tailLexemes own after →
        Unbroken rest 0 tokens := by
      intro before other after tokens rest split
      exact unbroken (clause :: before) other after tokens rest (by rw [split]; rfl)
    cases given : own clause with
    | none =>
      rw [tailLexemes_none given] at same
      obtain ⟨found, windows, finds⟩ :=
        ih ascending (fun other member next inside => unseen other member next (.tail _ inside)) later same
      exact ⟨found, windows, finds.skip given⟩
    | some lexemes =>
      rw [tailLexemes_some given] at same
      obtain ⟨token, opened, rest, rfl, rfl, here, opens⟩ := opensClause_keywords same
      obtain ⟨inner, after, rfl, rfl, tail⟩ := List.map_eq_append_iff.mp here
      have next : ∀ other ∈ opened.clause :: seen, ∀ later ∈ order, other.rank < later.rank := by
        intro other member later inside
        rcases List.mem_cons.mp member with rfl | before
        · exact earlier later inside
        · exact unseen other before later (.tail _ inside)
      obtain ⟨found, windows, finds⟩ := ih ascending next later tail
      have ordered : checkOrder seen opened = .ok () :=
        checkOrder_of_rank fun other member => unseen other member _ (.head _)
      have whole := unbroken [] opened.clause order inner after rfl given tail
      have all : FindsClauses own (opened.clause :: order) ({ opened with tokens := inner } :: found) :=
        finds.cons given
      exact ⟨_, .cons opens ordered whole windows, all⟩

/-- A token may open a clause only before an operator. -/
def Guarded (token : Token) (rest : List Token) : Prop :=
  ∀ opened, windowAt token rest = .ok (some opened) →
    ∃ symbol more, rest = symbol :: more ∧ symbol.IsSymbol

/-- Windows of row counts hold a number. -/
def Counts (found : List Window) : Prop :=
  ∀ window ∈ found, window.clause = .limit ∨ window.clause = .offset →
    ∃ token, window.tokens = [token] ∧ (Text.toInt? token.text).isSome

theorem Operator.toInt?_symbol (operator : Operator) : Text.toInt? operator.symbol = none := by
  cases operator with
  | compare comparator => cases comparator <;> decide
  | connect connective => cases connective <;> decide
  | _ => decide

theorem loneClause?_rank (lone : loneClause? token = some clause) :
    clause = .where_ ∨ clause = .limit ∨ clause = .offset := by
  unfold loneClause? at lone
  split at lone
  · cases lone
    exact .inl rfl
  · split at lone
    · cases lone
      exact .inr (.inl rfl)
    · split at lone
      · cases lone
        exact .inr (.inr rfl)
      · cases lone

theorem Token.IsSymbol.unlike_by {token : Token} (symbol : token.IsSymbol) :
    token.isKeyword "BY" = false := by
  obtain ⟨operator, text, _⟩ := symbol
  have quiet := Text.sameFold_of_isQuiet operator.isQuiet_symbol
    (show Text.ofString "BY" ∈ clauseWords by decide)
  simp [Token.isKeyword, text, quiet]

/-- What opens before an operator opens alone. -/
theorem windowAt_before_symbol (symbol : Token.IsSymbol next)
    (opens : windowAt token (next :: rest) = .ok (some opened)) :
    loneClause? token = some opened.clause ∧ opened.second = none := by
  have unlike := symbol.unlike_by
  cases lone : loneClause? token with
  | some clause =>
    simp only [windowAt, lone, Except.ok.injEq, Option.some.injEq] at opens
    subst opens
    exact ⟨rfl, rfl⟩
  | none => cases paired : byClause? token <;> simp [windowAt, lone, paired, unlike] at opens

/-- No clause opens before an operator: a second restriction is refused, and an operator is no
number. -/
theorem not_windows_before_symbol (counts : Counts found) (symbol : Token.IsSymbol next) :
    ¬ Windows (clause :: seen) (token :: next :: rest) found := by
  intro windows
  obtain ⟨opened, own, after, later, opens, rest', rfl, ordered, -, -⟩ := windows.first
  obtain ⟨lone, alone⟩ := windowAt_before_symbol symbol opens
  rw [alone, Option.toList_none, List.nil_append] at rest'
  have counted : opened.clause = .limit ∨ opened.clause = .offset → False := by
    intro count
    obtain ⟨number, only, numeral⟩ := counts _ (.head _) count
    change own = [number] at only
    obtain ⟨operator, text, _⟩ := symbol
    rw [only] at rest'
    obtain ⟨rfl, -⟩ := List.cons.inj rest'
    simp [text, operator.toInt?_symbol] at numeral
  rcases loneClause?_rank lone with same | same | same
  · -- No clause comes before a restriction, and it comes only once.
    obtain ⟨unseen, behind⟩ := checkOrder_eq_ok_iff.mp ordered
    rw [same] at unseen behind
    cases clause with
    | where_ => exact unseen (.head _)
    | _ => exact absurd (behind _ rfl) (by decide)
  · exact counted (.inl same)
  · exact counted (.inr same)

/-- What follows a clause opens the next one. -/
theorem windowAt_tail {own : Clause → Option (List Lexeme)}
    (same : (token :: rest).map Token.lexeme = tailLexemes own order) :
    ∃ opened, windowAt token rest = .ok (some opened) := by
  induction order with
  | nil => cases same
  | cons clause order ih =>
    cases given : own clause with
    | none =>
      rw [tailLexemes_none given] at same
      exact ih same
    | some lexemes =>
      rw [tailLexemes_some given] at same
      obtain ⟨_, opened, _, shape, -, -, opens⟩ := opensClause_keywords same
      obtain ⟨rfl, rfl⟩ := List.cons.inj shape
      exact ⟨opened, opens⟩

/-- A clause whose names open others only before operators reaches up to the next clause. -/
theorem clause_of_windows {own : Clause → Option (List Lexeme)} {inner : List Token} (counts : Counts found)
    (guarded : Surface Guarded after 0 inner)
    (tail : after.map Token.lexeme = tailLexemes own order)
    (same : kept ++ rest = inner ++ after) (unbroken : Unbroken rest 0 kept)
    (windows : Windows (clause :: seen) rest found) : kept = inner ∧ rest = after := by
  rcases List.append_eq_append_iff.mp same with ⟨more, rfl, rfl⟩ | ⟨more, rfl, rfl⟩
  · cases more with
    | nil => exact ⟨by simp, rfl⟩
    | cons token more =>
      obtain ⟨-, later⟩ := (surface_append_iff (Surface.balanced unbroken)).mp guarded
      have guard := later.2.1 rfl
      obtain ⟨opened, -, -, -, opens, -⟩ := windows.first
      obtain ⟨symbol, others, shape, isSymbol⟩ := guard opened opens
      rw [List.cons_append, shape] at windows
      exact absurd windows (not_windows_before_symbol counts isSymbol)
  · cases more with
    | nil => exact ⟨by simp, rfl⟩
    | cons token more =>
      obtain ⟨opened, opens⟩ := windowAt_tail tail
      have balanced := Surface.balanced guarded
      have quiet := ((surface_append_iff balanced).mp unbroken).2.2.1 rfl
      cases quiet.symm.trans opens

/-- If the clauses of a query are found at all, each is found whole. -/
theorem clauses_of_windows {own : Clause → Option (List Lexeme)} {tokens : List Token}
    (counts : Counts found)
    (guarded : ∀ before clause later tokens after, order = before ++ clause :: later →
      own clause = some (tokens.map Token.lexeme) → after.map Token.lexeme = tailLexemes own later →
      Surface Guarded after 0 tokens)
    (windows : Windows seen tokens found)
    (same : tokens.map Token.lexeme = tailLexemes own order) :
    ∀ before clause later lexemes, order = before ++ clause :: later → own clause = some lexemes →
      ∃ window ∈ found, window.clause = clause ∧ window.tokens.map Token.lexeme = lexemes ∧
        ∃ after, after.map Token.lexeme = tailLexemes own later ∧ Unbroken after 0 window.tokens := by
  induction order generalizing seen tokens found with
  | nil =>
    intro before clause later lexemes split
    simp at split
  | cons clause order ih =>
    have laterGuarded : ∀ before other after tokens rest, order = before ++ other :: after →
        own other = some (tokens.map Token.lexeme) → rest.map Token.lexeme = tailLexemes own after →
        Surface Guarded rest 0 tokens := by
      intro before other after tokens rest split
      exact guarded (clause :: before) other after tokens rest (by rw [split]; rfl)
    intro before other later lexemes split owned
    cases given : own clause with
    | none =>
      rw [tailLexemes_none given] at same
      cases before with
      | nil =>
        obtain ⟨rfl, rfl⟩ := List.cons.inj split
        rw [given] at owned
        cases owned
      | cons _ before =>
        obtain ⟨-, split⟩ := List.cons.inj split
        exact ih counts laterGuarded windows same before other later lexemes split owned
    | some own' =>
      rw [tailLexemes_some given] at same
      obtain ⟨token, opened, rest, rfl, rfl, here, opens⟩ := opensClause_keywords same
      obtain ⟨inner, after, rfl, rfl, tail⟩ := List.map_eq_append_iff.mp here
      have whole := guarded [] opened.clause order inner after rfl given tail
      obtain ⟨again, kept, rest, found, opens', shape, rfl, -, unbroken, more⟩ := windows.first
      obtain rfl : opened = again := by
        have both := opens.symm.trans opens'
        simpa using both
      have later' : Counts found := fun window member => counts window (.tail _ member)
      obtain ⟨rfl, rfl⟩ := clause_of_windows later' whole tail (List.append_cancel_left shape).symm
        unbroken more
      cases before with
      | nil =>
        obtain ⟨rfl, rfl⟩ := List.cons.inj split
        obtain rfl := Option.some.inj (given.symm.trans owned)
        exact ⟨_, .head _, rfl, rfl, rest, tail, unbroken⟩
      | cons _ before =>
        obtain ⟨-, split⟩ := List.cons.inj split
        obtain ⟨window, member, found⟩ :=
          ih later' laterGuarded more tail before other later lexemes split owned
        exact ⟨window, .tail _ member, found⟩

end RecordQuery
