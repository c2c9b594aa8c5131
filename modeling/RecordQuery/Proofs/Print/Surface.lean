import RecordQuery.Proofs.Grammar.Window
import RecordQuery.Proofs.Print.Spelling

namespace RecordQuery

open Query

/-- Tokens of these kinds and texts are tokens of a query and close their brackets. -/
def Enclosed (lexemes : List Lexeme) : Prop :=
  (∀ lexeme ∈ lexemes, lexeme.1.isWritten = true) ∧
    ∀ tokens : List Token, tokens.map Token.lexeme = lexemes → Balanced 0 tokens

namespace Enclosed

theorem written (enclosed : Enclosed lexemes) {tokens : List Token}
    (same : tokens.map Token.lexeme = lexemes) : ∀ token ∈ tokens, token.kind.isWritten = true := by
  intro token member
  exact enclosed.1 token.lexeme (same ▸ List.mem_map_of_mem member)

theorem balanced (enclosed : Enclosed lexemes) {tokens : List Token}
    (same : tokens.map Token.lexeme = lexemes) : Balanced 0 tokens :=
  enclosed.2 tokens same

theorem append (before : Enclosed lexemes) (after : Enclosed more) : Enclosed (lexemes ++ more) := by
  constructor
  · intro lexeme member
    rcases List.mem_append.mp member with first | second
    · exact before.1 lexeme first
    · exact after.1 lexeme second
  · intro tokens same
    obtain ⟨first, second, rfl, own, later⟩ := List.map_eq_append_iff.mp same
    exact (before.balanced own).append (after.balanced later)

theorem of_no_bracket
    (plain : ∀ lexeme ∈ lexemes, lexeme.1 = .word ∨ lexeme.1 = .operator ∨ lexeme.1 = .string ∨
      lexeme.1 = .comma) : Enclosed lexemes := by
  constructor
  · intro lexeme member
    rcases plain lexeme member with kind | kind | kind | kind <;> simp [kind, TokenKind.isWritten]
  · intro tokens same
    apply balanced_of_no_bracket
    intro token member
    have kinds := plain token.lexeme (same ▸ List.mem_map_of_mem member)
    simp only [Token.lexeme] at kinds
    rcases kinds with kind | kind | kind | kind <;> simp [kind]

theorem bracket (inner : Enclosed lexemes) :
    Enclosed (Lexeme.opening :: (lexemes ++ [Lexeme.closing])) := by
  constructor
  · intro lexeme member
    simp only [List.mem_cons, List.mem_append, List.not_mem_nil, or_false] at member
    rcases member with rfl | inside | rfl
    · rfl
    · exact inner.1 lexeme inside
    · rfl
  · intro tokens same
    obtain ⟨opening, rest, rfl, opens, inside⟩ := List.map_eq_cons_iff.mp same
    obtain ⟨own, last, rfl, within, closed⟩ := List.map_eq_append_iff.mp inside
    obtain ⟨closing, rfl, closes⟩ := List.map_eq_singleton_iff.mp closed
    obtain ⟨kind, -⟩ := Prod.mk.inj opens
    refine ⟨by simp [kind], ?_⟩
    have surface : Surface (fun _ _ => True) [] 1 (own ++ [closing]) :=
      surface_of_balanced (inner.balanced within) (Prod.mk.inj closes).1
    simpa [openAfter, kind] using surface.balanced

theorem word (text : Text) : Enclosed [Lexeme.word text] := of_no_bracket (by simp)

theorem cons_word (text : Text) (later : Enclosed lexemes) : Enclosed (Lexeme.word text :: lexemes) :=
  (word text).append later

theorem text (w : Text) (fresh : Bool) : Enclosed (w.lexemes fresh) := by
  apply of_no_bracket
  unfold Text.lexemes
  split <;> simp

theorem separated {pieces : List Piece} (each : ∀ piece ∈ pieces, ∀ fresh, Enclosed (piece fresh)) :
    Enclosed (separated fresh pieces) := by
  induction pieces generalizing fresh with
  | nil => exact of_no_bracket (by simp [RecordQuery.separated])
  | cons piece pieces ih =>
    cases pieces with
    | nil => exact each piece (.head _) fresh
    | cons next pieces =>
      have comma : Enclosed [Lexeme.comma] := of_no_bracket (by simp)
      have later : Enclosed (RecordQuery.separated true (next :: pieces)) :=
        ih fun other member => each other (.tail _ member)
      exact (each piece (.head _) fresh).append (comma.append later)

end Enclosed

theorem enclosed_head (type : RecordType) (properties : List Text) (aggregates : List AggregateCall) :
    Enclosed (headLexemes type properties aggregates) := by
  refine .cons_word _ (.append (.separated ?_) (.cons_word _ (.text _ _)))
  intro piece member fresh
  rcases List.mem_append.mp member with property | aggregate
  · obtain ⟨path, -, rfl⟩ := List.mem_map.mp property
    exact .text path fresh
  · obtain ⟨call, -, rfl⟩ := List.mem_map.mp aggregate
    exact .cons_word _ (.bracket (.word call.property))

theorem enclosed_tail {own : Clause → Option (List Lexeme)}
    (each : ∀ clause ∈ order, ∀ lexemes ∈ own clause, Enclosed lexemes) :
    Enclosed (tailLexemes own order) := by
  induction order with
  | nil => exact .of_no_bracket (by simp [tailLexemes])
  | cons clause order ih =>
    have later := ih fun other member => each other (.tail _ member)
    cases owned : own clause with
    | none => rwa [tailLexemes_none owned]
    | some lexemes =>
      have keywords : Enclosed clause.keywords := by
        apply Enclosed.of_no_bracket
        cases clause <;> simp [Clause.keywords]
      rw [tailLexemes_some owned]
      exact keywords.append ((each clause (.head _) lexemes owned).append later)

/-- All clauses but the first one are words and commas. -/
theorem enclosed_clauses {criteria : Criteria}
    (restricted : ∀ restriction ∈ criteria.restriction, Enclosed (restriction.lexemes .clause)) :
    ∀ clause ∈ Clause.all, ∀ lexemes ∈ criteria.own clause, Enclosed lexemes := by
  intro clause _ lexemes owned
  cases clause with
  | where_ =>
    obtain ⟨restriction, given, rfl⟩ := Option.map_eq_some_iff.mp owned
    exact restricted restriction given
  | groupBy =>
    simp only [Criteria.own, clauseLexemes, Option.mem_def, Option.ite_none_left_eq_some] at owned
    rw [← Option.some.inj owned.2]
    apply Enclosed.separated
    intro piece member fresh
    obtain ⟨key, -, rfl⟩ := List.mem_map.mp member
    exact .text key fresh
  | orderBy =>
    simp only [Criteria.own, clauseLexemes, Option.mem_def, Option.ite_none_left_eq_some] at owned
    rw [← Option.some.inj owned.2]
    apply Enclosed.separated
    intro piece member fresh
    obtain ⟨key, -, rfl⟩ := List.mem_map.mp member
    exact .append (.text _ fresh) (.word _)
  | limit =>
    obtain ⟨count, -, rfl⟩ := Option.map_eq_some_iff.mp owned
    exact .word _
  | offset =>
    obtain ⟨count, -, rfl⟩ := Option.map_eq_some_iff.mp owned
    exact .word _

theorem Criteria.enclosed_of_restriction {criteria : Criteria}
    (restricted : ∀ restriction ∈ criteria.restriction, Enclosed (restriction.lexemes .clause)) :
    Enclosed criteria.lexemes := by
  rw [criteria.lexemes_eq]
  exact (enclosed_head _ _ _).append (enclosed_tail (enclosed_clauses restricted))

mutual

/-- The tokens of a restriction close their brackets. -/
theorem Restriction.enclosed (place : Place) :
    (restriction : Restriction) → Enclosed (restriction.lexemes place)
  | .missing => .of_no_bracket (by simp [Restriction.lexemes])
  | .comparison comparator path value => by
    refine .append (.text _ _) (.of_no_bracket ?_)
    cases comparator <;> simp [Comparator.lexeme, Comparator.isPattern, Value.piece]
  | .isNull path => .append (.text _ _) (.word _)
  | .inValues path values => by
    refine .append (.text _ _) (.cons_word _ (.bracket (.separated ?_)))
    intro piece member fresh
    obtain ⟨value, -, rfl⟩ := List.mem_map.mp member
    exact .of_no_bracket (by simp [Value.piece])
  | .inQuery path query => .append (.text _ _) (.cons_word _ (.bracket (Criteria.enclosed query)))
  | .junction _ [] => by
    have empty : Enclosed [] := .of_no_bracket (by simp)
    rw [Restriction.lexemes, Place.bracket]
    split
    · exact empty.bracket
    · exact empty
  | .junction connective (child :: children) => by
    have chain := (Restriction.enclosed place.first child).append
      (Restriction.enclosed_links connective place.first.next children)
    rw [Restriction.lexemes, Place.bracket]
    split
    · exact chain.bracket
    · exact chain
  | .not child => .cons_word _ (Restriction.enclosed place.next child)

theorem Restriction.enclosed_links (connective : Connective) (place : Place) :
    (children : List Restriction) → Enclosed (Restriction.linkLexemes connective place children)
  | [] => .of_no_bracket (by simp [Restriction.linkLexemes])
  | child :: children =>
    .cons_word _ (.append (Restriction.enclosed place child)
      (Restriction.enclosed_links connective place children))

theorem Criteria.enclosed : (criteria : Criteria) → Enclosed criteria.lexemes
  | ⟨_, _, _, none, _, _, _, _, _, _⟩ =>
    Criteria.enclosed_of_restriction fun _ given => by cases given
  | ⟨_, _, _, some restriction, _, _, _, _, _, _⟩ =>
    Criteria.enclosed_of_restriction fun _ given => by
      cases given
      exact Restriction.enclosed .clause restriction

end

/-- A token that reads exactly like an operator. -/
def Token.IsSymbol (token : Token) : Prop :=
  ∃ operator : Operator, token.text = operator.symbol ∧
    (token.kind = .word ∨ token.kind = .operator)

/-- What is allowed of operators and of everything that is no word. -/
structure Tolerates (allowed : Token → List Token → Prop) : Prop where
  mark : ∀ token rest, token.kind ≠ .word → allowed token rest
  symbol : ∀ token rest, token.IsSymbol → allowed token rest

section Surface

variable {allowed : Token → List Token → Prop} {frame : Criteria → Prop}
  {leaf : Place → Restriction → Prop} {tokens after : List Token} {place : Place}

/-- A path outside of brackets satisfies `allowed` before any operator. -/
def AllowsPaths (allowed : Token → List Token → Prop) (leaf : Place → Restriction → Prop) : Prop :=
  ∀ place restriction path token symbol rest, place.isExposed = true → leaf place restriction →
    restriction.property? = some path → token.lexeme ∈ path.lexemes false →
    symbol.IsSymbol → allowed token (symbol :: rest)

theorem Place.isFresh_of_isExposed (exposed : place.isExposed = true) : place.isFresh = false := by
  cases place with
  | clause | chain => rfl
  | opening | inside => cases exposed

theorem surface_mark (tolerates : Tolerates allowed) (other : token.kind ≠ .word)
    (unclosed : token.kind ≠ .closing) (same : openAfter token 0 = 0)
    (later : Surface allowed after 0 tokens) : Surface allowed after 0 (token :: tokens) := by
  refine ⟨by simp [unclosed], fun _ => tolerates.mark _ _ other, ?_⟩
  rwa [same]

theorem surface_symbol (tolerates : Tolerates allowed) (symbol : token.IsSymbol)
    (later : Surface allowed after 0 tokens) : Surface allowed after 0 (token :: tokens) := by
  obtain ⟨_, _, kind⟩ := id symbol
  refine ⟨?_, fun _ => tolerates.symbol _ _ symbol, ?_⟩
  · rcases kind with kind | kind <;> simp [kind]
  · rcases kind with kind | kind <;> simpa [openAfter, kind] using later

theorem surface_bracket (tolerates : Tolerates allowed) (inner : Enclosed lexemes)
    (same : tokens.map Token.lexeme = Lexeme.opening :: (lexemes ++ [Lexeme.closing])) :
    Surface allowed after 0 tokens := by
  obtain ⟨opening, rest, rfl, opens, inside⟩ := List.map_eq_cons_iff.mp same
  obtain ⟨own, last, rfl, within, closed⟩ := List.map_eq_append_iff.mp inside
  obtain ⟨closing, rfl, closes⟩ := List.map_eq_singleton_iff.mp closed
  obtain ⟨kind, -⟩ := Prod.mk.inj opens
  refine ⟨by simp [kind], fun _ => tolerates.mark _ _ (by simp [kind]), ?_⟩
  simp only [openAfter, kind, ↓reduceIte, Nat.zero_add]
  exact surface_of_balanced (inner.balanced within) (Prod.mk.inj closes).1

theorem surface_word (kind : token.kind = .word) (allows : allowed token (tokens ++ after))
    (later : Surface allowed after 0 tokens) : Surface allowed after 0 (token :: tokens) := by
  refine ⟨by simp [kind], fun _ => allows, ?_⟩
  simpa [openAfter, kind] using later

/-- A path and an operator, and what follows them. -/
theorem surface_leaf (tolerates : Tolerates allowed) (paths : AllowsPaths allowed leaf)
    (exposed : place.isExposed = true) (holds : leaf place restriction)
    (property : restriction.property? = some path) (symbol : ∀ token : Token,
      token.lexeme = lexeme → token.IsSymbol)
    (later : ∀ tokens, tokens.map Token.lexeme = lexemes → Surface allowed after 0 tokens)
    (same : tokens.map Token.lexeme = path.lexemes place.isFresh ++ lexeme :: lexemes) :
    Surface allowed after 0 tokens := by
  rw [Place.isFresh_of_isExposed exposed] at same
  obtain ⟨start, more, rfl, own, rest⟩ := List.map_eq_append_iff.mp same
  obtain ⟨operator, others, rfl, is, last⟩ := List.map_eq_cons_iff.mp rest
  refine (surface_append_iff ((Enclosed.text path false).balanced own)).mpr ⟨?_, ?_⟩
  · have allows : ∀ token ∈ start, allowed token (operator :: (others ++ after)) := by
      intro token member
      exact paths place restriction path token operator _ exposed holds property
        (own ▸ List.mem_map_of_mem member) (symbol operator is)
    unfold Text.lexemes at own
    split at own
    · obtain ⟨sign, number, rfl, signs, digits⟩ := List.map_eq_cons_iff.mp own
      obtain ⟨word, rfl, words⟩ := List.map_eq_singleton_iff.mp digits
      obtain ⟨signKind, -⟩ := Prod.mk.inj signs
      apply surface_mark tolerates (by simp [signKind]) (by simp [signKind]) (by simp [openAfter, signKind])
      exact surface_word (Prod.mk.inj words).1 (allows word (by simp)) rfl
    · obtain ⟨word, rfl, words⟩ := List.map_eq_singleton_iff.mp own
      exact surface_word (Prod.mk.inj words).1 (allows word (by simp)) rfl
  · exact surface_symbol tolerates (symbol operator is) (later others last)

theorem symbol_of_word {token : Token} (operator : Operator)
    (is : token.lexeme = Lexeme.word operator.symbol) : token.IsSymbol :=
  ⟨operator, (Prod.mk.inj is).2, .inl (Prod.mk.inj is).1⟩

theorem symbol_of_comparator {token : Token} (comparator : Comparator)
    (is : token.lexeme = comparator.lexeme) : token.IsSymbol := by
  obtain ⟨kind, text⟩ := Prod.mk.inj is
  refine ⟨.compare comparator, text, ?_⟩
  rw [kind]
  split <;> simp

mutual

/-- What stands outside of brackets in a restriction is allowed. -/
theorem Restriction.surface (tolerates : Tolerates allowed) (paths : AllowsPaths allowed leaf)
    (place : Place) (exposed : place.isExposed = true) (after tokens : List Token) :
    (restriction : Restriction) → restriction.Holds frame leaf place →
      tokens.map Token.lexeme = restriction.lexemes place → Surface allowed after 0 tokens
  | .missing, _, same => by
    obtain rfl := List.map_eq_nil_iff.mp same
    rfl
  | .comparison comparator path value, holds, same => by
    refine surface_leaf tolerates paths exposed holds rfl (fun _ => symbol_of_comparator comparator)
      ?_ same
    intro last literal
    obtain ⟨token, rfl, is⟩ := List.map_eq_singleton_iff.mp literal
    obtain ⟨kind, -⟩ := Prod.mk.inj is
    exact surface_mark tolerates (by simp [kind]) (by simp [kind]) (by simp [openAfter, kind]) rfl
  | .isNull path, holds, same => by
    refine surface_leaf tolerates paths exposed holds rfl (fun _ => symbol_of_word .isNull) ?_ same
    intro last nothing
    obtain rfl := List.map_eq_nil_iff.mp nothing
    rfl
  | .inValues path values, holds, same => by
    refine surface_leaf tolerates paths exposed holds rfl (fun _ => symbol_of_word .isIn) ?_ same
    intro brackets within
    refine surface_bracket tolerates (.separated ?_) within
    intro piece member fresh
    obtain ⟨value, -, rfl⟩ := List.mem_map.mp member
    exact .of_no_bracket (by simp [Value.piece])
  | .inQuery path query, holds, same => by
    refine surface_leaf tolerates paths exposed holds.1 rfl (fun _ => symbol_of_word .isIn) ?_ same
    intro brackets within
    exact surface_bracket tolerates (Criteria.enclosed query) within
  | .junction _ [], _, same => by
    cases place with
    | clause =>
      obtain rfl := List.map_eq_nil_iff.mp same
      rfl
    | chain => exact surface_bracket tolerates (.of_no_bracket (by simp)) same
    | opening | inside => cases exposed
  | .junction connective (child :: children), holds, same => by
    cases place with
    | clause =>
      obtain ⟨phrase, links, rfl, own, later⟩ := List.map_eq_append_iff.mp same
      refine (surface_append_iff ((Restriction.enclosed .chain child).balanced own)).mpr ⟨?_, ?_⟩
      · exact Restriction.surface tolerates paths .chain rfl _ phrase child holds.1 own
      · exact Restriction.surface_links tolerates paths connective _ links children holds.2 later
    | chain =>
      exact surface_bracket tolerates (.append (Restriction.enclosed _ child)
        (Restriction.enclosed_links _ _ children)) same
    | opening | inside => cases exposed
  | .not child, holds, same => by
    obtain ⟨token, phrase, rfl, is, own⟩ := List.map_eq_cons_iff.mp same
    apply surface_symbol tolerates (symbol_of_word .not is)
    refine Restriction.surface tolerates paths place.next ?_ _ phrase child holds own
    cases place <;> first | rfl | cases exposed

theorem Restriction.surface_links (tolerates : Tolerates allowed) (paths : AllowsPaths allowed leaf)
    (connective : Connective) (after tokens : List Token) :
    (children : List Restriction) → Restriction.HoldsAll frame leaf .chain children →
      tokens.map Token.lexeme = Restriction.linkLexemes connective .chain children →
      Surface allowed after 0 tokens
  | [], _, same => by
    obtain rfl := List.map_eq_nil_iff.mp same
    rfl
  | child :: children, holds, same => by
    obtain ⟨token, more, rfl, is, rest⟩ := List.map_eq_cons_iff.mp same
    obtain ⟨phrase, links, rfl, own, later⟩ := List.map_eq_append_iff.mp rest
    apply surface_symbol tolerates (symbol_of_word (.connect connective) is)
    refine (surface_append_iff ((Restriction.enclosed .chain child).balanced own)).mpr ⟨?_, ?_⟩
    · exact Restriction.surface tolerates paths .chain rfl _ phrase child holds.1 own
    · exact Restriction.surface_links tolerates paths connective _ links children holds.2 later

end

end Surface
end RecordQuery
