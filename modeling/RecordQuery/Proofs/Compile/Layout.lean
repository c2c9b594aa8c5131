import RecordQuery.Proofs.Compile.Moved
import RecordQuery.Proofs.Grammar.Move
import RecordQuery.Proofs.Lexing.Tokenized
import RecordQuery.Query

/-! Layout does not matter. The tokens of a query may be set apart by single spaces and are read again as they
were, and what a query means, or what is wrong with it, is known from its tokens alone. -/
namespace RecordQuery

namespace Lexer

/-- With the default operator characters, a token ends before a blank and at the end. -/
theorem follows_blank {follow : Text} (rest : Text) (blank : ∀ b ∈ follow.head?, isSpace b = true) :
    Follows defaultOperators rest follow := by
  have undigit : startsWithDigit follow = false := by
    cases follow with
    | nil => rfl
    | cons b follow =>
      apply Bool.eq_false_iff.mpr
      intro digit
      have space := blank b rfl
      simp [(Text.isWordByte_iff.mp (Text.isWordByte_of_isDigit digit)).2.1] at space
  refine ⟨?_, ?_, ?_, ?_⟩
  · intro _
    cases follow with
    | nil => rfl
    | cons b follow => simp [inWord, blank b rfl]
  · intro _
    cases follow with
    | nil => rfl
    | cons b follow =>
      have plain : isOperator defaultOperators b = false := by
        apply Bool.eq_false_iff.mpr
        intro operator
        have space := blank b rfl
        simp [(Scans.operator_unlike operator).2.1] at space
      simp [operatorTail, plain]
  · intro digit
    simp [undigit] at digit
  · -- A digit is a byte of words, so it never stands behind a number.
    intro digit empty
    cases rest with
    | nil => cases digit
    | cons b rest =>
      have inside : inWord defaultOperators b = true := Text.isWordByte_of_isDigit digit
      rw [List.takeWhile_cons_of_pos inside] at empty
      cases empty

/-- Joined texts begin with the first of them, and there are only blanks before the others. -/
theorem join_cons (text : Text) (texts : List Text) : ∃ blanks, (∀ b ∈ blanks, isSpace b = true) ∧
    (∀ b ∈ (blanks ++ Text.join " " texts).head?, isSpace b = true) ∧
    Text.join " " (text :: texts) = text ++ (blanks ++ Text.join " " texts) := by
  cases texts with
  | nil => exact ⟨[], by simp, by simp [Text.join], by simp [Text.join]⟩
  | cons next texts =>
    refine ⟨[Text.ascii ' '], List.forall_mem_singleton.mpr rfl, ?_, ?_⟩
    · intro b head
      cases head
      rfl
    · rw [Text.join, List.intercalate_cons_cons, List.append_assoc]
      rfl

/-- The texts of tokens with single spaces between them are the texts of such tokens. -/
theorem run_join {l : Lexer} (other : Lexer) {blanks : Text} (ran : l.run = .ok (tokens, ending))
    (default : l.operators = defaultOperators) (operators : other.operators = l.operators)
    (last : other.last = l.last) (blank : ∀ b ∈ blanks, isSpace b = true)
    (texts : other.rest = blanks ++ Text.join " " (tokens.map (·.text))) :
    ∃ again ending', other.run = .ok (again, ending') ∧ again.map Token.lexeme = tokens.map Token.lexeme := by
  fun_induction run l generalizing tokens other blanks with
  | case1 => cases ran
  | case2 l token after found finished =>
    cases ran
    obtain ⟨ending', ended⟩ : ∃ ending', other.run = .ok ([], ending') := by
      apply run_blank
      rw [texts]
      simpa [Text.join] using blank
    exact ⟨[], ending', ended, rfl⟩
  | case3 l token after found more shorter ih =>
    obtain ⟨⟨rest, _⟩, ran, same⟩ := map_eq_ok.mp ran
    cases same
    obtain ⟨spaces, spaced, starts, joined⟩ := join_cons token.text (rest.map (·.text))
    rw [List.map_cons, joined] at texts
    have same := next_operators found
    have steps := next_follow other found more (default ▸ follows_blank after.rest starts) blank texts operators
      last
    obtain ⟨again, ending', ran', lexemes⟩ :=
      ih ⟨l.operators, _, (other.position.advance blanks).advance token.text, token.kind⟩ ran (same.trans default)
        same.symm (next_last found more).symm spaced rfl
    have runs : other.run =
        .ok (⟨token.kind, token.text, some (other.position.advance blanks)⟩ :: again, ending') := by
      rw [run_step steps more, ran']
      rfl
    exact ⟨_, _, runs, congrArg (token.lexeme :: ·) lexemes⟩

/-- The end token has no text. -/
theorem run_ending {l : Lexer} (ran : l.run = .ok (tokens, ending)) : ending.lexeme = (.eof, []) := by
  fun_induction run l generalizing tokens with
  | case1 => cases ran
  | case2 l token after found finished =>
    cases ran
    exact Prod.ext finished (ended_of_next found finished).1
  | case3 l token after found more shorter ih =>
    obtain ⟨⟨rest, _⟩, ran, same⟩ := map_eq_ok.mp ran
    cases same
    exact ih ran

end Lexer

theorem Token.moved_of_lexeme {first second : Token} (same : first.lexeme = second.lexeme) :
    first.Moved second := by
  obtain ⟨kind, text, place⟩ := first
  obtain ⟨kind', text', place'⟩ := second
  cases same
  exact .intro

theorem forall₂_moved {tokens others : List Token} (same : tokens.map Token.lexeme = others.map Token.lexeme) :
    List.Forall₂ Token.Moved tokens others := by
  induction tokens generalizing others with
  | nil =>
    cases others with
    | nil => exact .nil
    | cons other others => cases same
  | cons token tokens ih =>
    cases others with
    | nil => cases same
    | cons other others =>
      obtain ⟨first, rest⟩ := List.cons.inj same
      exact .cons (Token.moved_of_lexeme first) (ih rest)

namespace Query

open List (Forall₂)

variable {ending ending' : Token} {tokens others : List Token}

/-- The same restriction, before the same tokens moved. -/
def ParsedMoved (read : Parsed tokens) (read' : Parsed others) : Prop :=
  read.1 = read'.1 ∧ Forall₂ Token.Moved read.2.1 read'.2.1

/-- The reader finds the same restriction wherever the tokens stand. -/
def RestrictionReader.Steady (read : RestrictionReader) : Prop :=
  ∀ {ending ending' : Token} {tokens others : List Token}, ending.Moved ending' →
    Forall₂ Token.Moved tokens others → Agree ParsedMoved (read ending tokens) (read ending' others)

/-- The reader finds the same subquery wherever the tokens stand. -/
def SubqueryReader.Steady (read : SubqueryReader) : Prop :=
  ∀ {closing closing' : Token} {tokens others : List Token}, closing.Moved closing' →
    Forall₂ Token.Moved tokens others → Agree (· = ·) (read closing tokens) (read closing' others)

theorem moved_splitClosing (depth : Nat) (same : Forall₂ Token.Moved tokens others) :
    Option.Rel (fun found found' => Forall₂ Token.Moved found.1 found'.1 ∧ found.2.1.Moved found'.2.1 ∧
      Forall₂ Token.Moved found.2.2 found'.2.2) (splitClosing depth tokens) (splitClosing depth others) := by
  induction same generalizing depth with
  | nil => exact .none
  | cons moved same ih =>
    rw [splitClosing, splitClosing, ← moved.kind]
    split
    · exact .some ⟨.nil, moved, same⟩
    · refine option_map_related (ih _) ?_
      rintro ⟨_, _, _⟩ ⟨_, _, _⟩ ⟨inner, after⟩
      exact ⟨.cons moved inner, after⟩

theorem agree_listValues {last last' : Token} (before : last.Moved last') (needComma : Bool)
    (same : Forall₂ Token.Moved tokens others) :
    Agree (· = ·) (listValues last needComma tokens) (listValues last' needComma others) := by
  induction same generalizing last last' needComma with
  | nil =>
    rw [listValues, listValues]
    split
    · exact .refl _
    · exact .atToken before _
  | cons moved _ ih =>
    rw [listValues, listValues, ← moved.kind, ← moved.value]
    split
    · exact .atToken moved _
    split
    · split
      · exact ih moved false
      · exact .atToken moved _
    split
    · exact .atToken moved _
    · refine (ih moved true).bind ?_
      rintro values _ rfl
      exact .refl _

theorem agree_membership {subquery : SubqueryReader} (subqueries : subquery.Steady)
    {property property' opening opening' closing closing' : Token} (subject : property.Moved property')
    (opens : opening.Moved opening') (closes : closing.Moved closing') (same : Forall₂ Token.Moved tokens others) :
    Agree (· = ·) (membership subquery property opening closing tokens)
      (membership subquery property' opening' closing' others) := by
  cases same with
  | nil => exact .atToken opens _
  | cons moved same =>
    rw [membership, membership, ← moved.isKeyword, subject.text]
    split
    · refine (subqueries closes (.cons moved same)).bind ?_
      rintro criteria _ rfl
      exact .refl _
    · refine (agree_listValues opens false (.cons moved same)).bind ?_
      rintro values _ rfl
      exact .refl _

/-- The same state of a level with its tokens moved. -/
inductive Phase.Moved : Phase → Phase → Prop where
  | start : Moved .start .start
  | subject {property property' : Token} (moved : property.Moved property') :
      Moved (.subject property) (.subject property')
  | predicate {property property' operator operator' : Token} {relation : Relation}
      (moved : property.Moved property') (operators : operator.Moved operator') :
      Moved (.predicate property relation operator) (.predicate property' relation operator')
  | chain {joined : Option Connective} {children : List Restriction} :
      Moved (.chain joined children) (.chain joined children)

theorem agree_close {closing closing' : Token} (moved : closing.Moved closing') {phase phase' : Phase}
    (phases : phase.Moved phase') : Agree (· = ·) (phase.close closing) (phase'.close closing') := by
  cases phases with
  | start => exact .atToken moved _
  | subject subject => exact .atToken subject _
  | predicate _ operator => exact .atToken operator _
  | @chain joined children =>
    cases joined with
    | some connective => exact .refl _
    | none =>
      rcases children with _ | ⟨child, _ | ⟨next, children⟩⟩
      · exact .atToken moved _
      · exact .refl _
      · exact .atToken moved _

/-- The cause of a refusal may quote the texts of tokens, but not their places. -/
theorem agree_refusal {α β : Type} {related : α → β → Prop} {token other : Token} (moved : token.Moved other)
    {phase phase' : Phase} (phases : phase.Moved phase') (part : Part) :
    Agree related (.error (.atToken token (phase.refusal token part)))
      (.error (.atToken other (phase'.refusal other part))) := by
  have same : phase.refusal token part = phase'.refusal other part := by
    cases phases with
    | start => cases part <;> simp [Phase.refusal, moved.text]
    | subject subject => cases part <;> simp [Phase.refusal, moved.text, subject.text]
    | @predicate _ _ _ _ relation _ _ => cases relation <;> cases part <;> simp [Phase.refusal, moved.text]
    | chain => cases part <;> simp [Phase.refusal, moved.text]
  rw [same]
  exact .atToken moved _

theorem Part.ofToken_eq {token other : Token} (moved : token.Moved other) : ofToken token = ofToken other := by
  cases moved
  rfl

/-- The same step of a level with its tokens moved. -/
inductive Move.Moved : Move → Move → Prop where
  | finish {made made' : Except QueryError Restriction} (agree : Agree (· = ·) made made') :
      Moved (.finish made) (.finish made')
  | advance {opened : Nat} {phase phase' : Phase} (phases : phase.Moved phase') :
      Moved (.advance opened phase) (.advance opened phase')
  | descend {opened : Nat} {phase : Restriction → Phase} (phases : ∀ first, (phase first).Moved (phase first)) :
      Moved (.descend opened phase) (.descend opened phase)
  | negate : Moved .negate .negate
  | members {property property' : Token} (moved : property.Moved property') :
      Moved (.members property) (.members property')

theorem Phase.Moved.move {phase phase' : Phase} (phases : phase.Moved phase') {token other : Token}
    (moved : token.Moved other) (opened : Nat) (part : Part) :
    (phase.move token opened part).Moved (phase'.move other opened part) := by
  by_cases closes : part = .closing
  · rw [closes, move_closing, move_closing]
    split
    · exact .advance phases
    · exact .finish (agree_close moved phases)
  have refused := Move.Moved.finish (agree_refusal moved phases part)
  cases phases with
  | start =>
    cases part with
    | opening => exact .descend fun _ => .chain
    | not => exact .negate
    | operand =>
      rw [Phase.move, Phase.move, ← moved.kind]
      split
      · exact .advance (.subject moved)
      · exact .finish (.atToken moved _)
    | closing => exact absurd rfl closes
    | _ => exact refused
  | subject subject =>
    cases part with
    | isNull => exact .finish (.ok (congrArg _ subject.text))
    | relation relation => exact .advance (.predicate subject moved)
    | closing => exact absurd rfl closes
    | _ => exact refused
  | @predicate _ _ _ _ relation subject _ =>
    rcases relation with comparator | _
    · cases part with
      | operand =>
        rw [Phase.move, Phase.move, subject.text, moved.value]
        split
        · exact .finish (.atToken moved _)
        · exact .finish (.refl _)
      | closing => exact absurd rfl closes
      | _ => exact refused
    · cases part with
      | opening => exact .members subject
      | closing => exact absurd rfl closes
      | _ => exact refused
  | chain =>
    cases part with
    | connective connective =>
      rw [Phase.move, Phase.move]
      split
      · exact .descend fun _ => .chain
      · exact .finish (.atToken moved _)
    | closing => exact absurd rfl closes
    | _ => exact refused

theorem agree_widen {rest rest' : List Token} {shorter : rest.length ≤ tokens.length}
    {shorter' : rest'.length ≤ others.length} (read : Parsed rest) (read' : Parsed rest')
    (same : ParsedMoved read read') :
    Agree ParsedMoved (pure (read.widen shorter)) (pure (read'.widen shorter')) :=
  .pure same

theorem agree_members {child : RestrictionReader} {subquery : SubqueryReader} (subqueries : subquery.Steady)
    {property property' token other : Token} (subject : property.Moved property') (moved : token.Moved other)
    (same : Forall₂ Token.Moved tokens others) :
    Agree ParsedMoved ((Move.members property).run child subquery ending token tokens)
      ((Move.members property').run child subquery ending' other others) := by
  have brackets := moved_splitClosing 0 same
  generalize found : splitClosing 0 tokens = split, found' : splitClosing 0 others = split' at brackets
  cases brackets with
  | none =>
    rw [Move.run_members_of_none found, Move.run_members_of_none found']
    exact .atToken moved _
  | @some place place' holds =>
    rw [Move.run_members_of_some found, Move.run_members_of_some found']
    refine (agree_membership subqueries subject moved holds.2.1 holds.1).bind ?_
    rintro whole _ rfl
    exact .pure ⟨rfl, holds.2.2⟩

/-- A level is read the same way wherever the tokens stand, as long as what is nested in it is. -/
theorem agree_level {child : RestrictionReader} {subquery : SubqueryReader} (children : child.Steady)
    (subqueries : subquery.Steady) (ends : ending.Moved ending') (opened : Nat) {phase phase' : Phase}
    (phases : phase.Moved phase') (same : Forall₂ Token.Moved tokens others) :
    Agree ParsedMoved (level child subquery ending opened phase tokens)
      (level child subquery ending' opened phase' others) := by
  induction size : tokens.length using Nat.strongRecOn generalizing opened phase phase' tokens others with
  | ind size ih =>
    subst size
    cases same with
    | nil =>
      rw [level, level]
      exact .atToken ends _
    | @cons token other tokens others moved same =>
      rw [level_cons, level_cons, ← Part.ofToken_eq moved]
      have moves := phases.move moved opened (Part.ofToken token)
      generalize phase.move token opened (Part.ofToken token) = move,
        phase'.move other opened (Part.ofToken token) = move' at moves
      cases moves with
      | finish agree =>
        refine agree.bind ?_
        rintro whole _ rfl
        exact .pure ⟨rfl, same⟩
      | advance phases => exact (ih _ (Nat.lt_succ_self _) _ phases same rfl).bind agree_widen
      | descend phases =>
        refine (children ends same).bind ?_
        rintro ⟨first, rest, shorter⟩ ⟨_, rest', _⟩ ⟨rfl, left⟩
        exact (ih _ (Nat.lt_succ_of_lt shorter) _ (phases first) left rfl).bind agree_widen
      | negate =>
        refine (children ends same).bind ?_
        rintro ⟨inner, rest⟩ ⟨_, rest'⟩ ⟨rfl, left⟩
        exact .pure ⟨rfl, left⟩
      | members subject => exact agree_members subqueries subject moved same

end Query

namespace Compiler

open Query List

variable {compiler : Compiler} {read : RestrictionReader} {ending ending' : Token} {tokens others : List Token}

theorem agree_readWhere (reads : read.Steady) {window window' : Window} (same : window.Moved window')
    {next next' : Token} (ends : next.Moved next') :
    Agree (· = ·) (readWhere read window next) (readWhere read window' next') := by
  rw [readWhere, readWhere, isEmpty_eq_of_forall₂ same.tokens]
  refine .guard same.keyword fun _ => ?_
  have bracketed : Forall₂ Token.Moved
      (⟨.opening, "(", window.keyword.position⟩ :: window.tokens ++ [⟨.closing, ")", next.position⟩])
      (⟨.opening, "(", window'.keyword.position⟩ :: window'.tokens ++ [⟨.closing, ")", next'.position⟩]) :=
    rel_append (.cons .intro same.tokens) (.cons .intro .nil)
  refine (reads ends bracketed).bind ?_
  rintro ⟨restriction, rest, _⟩ ⟨_, rest', _⟩ ⟨rfl, left⟩
  cases left with
  | nil => exact .refl _
  | cons moved _ => exact .atToken moved _

/-- The clauses one after another, those that are missing as empty ones. -/
theorem assemble_eq (schema : Schema) (isSubquery : Bool) (type : RecordType) (selected : List Selected)
    (windows : List Window) : assemble schema read isSubquery ending type selected windows = (do
      let restriction ← (window? ending .where_ windows).mapM fun found => do
        let restriction ← readWhere read found.1 found.2
        checkRestriction schema type restriction
        return restriction
      let groupBy ← (window? ending .groupBy windows).elim (pure []) fun found =>
        bindGroupKeys schema type (groupKeys found.1.keyword found.1.tokens)
      let criteria : Criteria :=
        { type, properties := (selected.filterMap (·.property?)).eraseDups
          aggregates := selected.filterMap (·.aggregate?), restriction, groupBy, orderBy := []
          limit := none, offset := none, aliases := [], isSubquery }
      criteria.checkGrouping.mapError .schema
      let orderBy ← (window? ending .orderBy windows).elim (pure []) fun found =>
        bindSortKeys schema type (orderKeys found.2 none found.1.tokens)
      let limit ← (window? ending .limit windows).mapM fun found =>
        rowCount .limit found.1.keyword found.1.tokens
      let offset ← (window? ending .offset windows).mapM fun found =>
        rowCount .offset found.1.keyword found.1.tokens
      return { criteria with orderBy, limit, offset }.withAliases) := by
  rw [assemble]
  cases window? ending .groupBy windows <;> cases window? ending .orderBy windows <;> rfl

theorem agree_assemble (reads : read.Steady) (ends : ending.Moved ending') {windows windows' : List Window}
    (same : Forall₂ Window.Moved windows windows') (schema : Schema) (isSubquery : Bool) (type : RecordType)
    (selected : List Selected) :
    Agree (· = ·) (assemble schema read isSubquery ending type selected windows)
      (assemble schema read isSubquery ending' type selected windows') := by
  rw [assemble_eq, assemble_eq]
  refine (agree_option_mapM (window?_moved ends .where_ same) ?_).bind ?_
  · intro found found' moved
    refine (agree_readWhere reads moved.1 moved.2).bind ?_
    rintro restriction _ rfl
    exact .refl _
  rintro restriction _ rfl
  refine (agree_option_elim (window?_moved ends .groupBy same) ?_).bind ?_
  · intro found found' moved
    exact agree_bindGroupKeys (moved_groupKeys moved.1.keyword moved.1.tokens)
  rintro groupBy _ rfl
  refine .bind_same _ fun _ => (agree_option_elim (window?_moved ends .orderBy same) ?_).bind ?_
  · intro found found' moved
    exact agree_bindSortKeys (moved_orderKeys moved.2 .none moved.1.tokens)
  rintro orderBy _ rfl
  refine (agree_option_mapM (window?_moved ends .limit same) ?_).bind ?_
  · intro found found' moved
    exact agree_rowCount moved.1.keyword .limit moved.1.tokens
  rintro limit _ rfl
  refine (agree_option_mapM (window?_moved ends .offset same) ?_).bind ?_
  · intro found found' moved
    exact agree_rowCount moved.1.keyword .offset moved.1.tokens
  rintro offset _ rfl
  exact .refl _

theorem agree_query (reads : read.Steady) (isSubquery : Bool) (ends : ending.Moved ending')
    (same : Forall₂ Token.Moved tokens others) :
    Agree (· = ·) (compiler.query read isSubquery ending tokens)
      (compiler.query read isSubquery ending' others) := by
  have head : ∀ {tokens others : List Token}, Forall₂ Token.Moved tokens others →
      (tokens.headD ending).Moved (others.headD ending') := by
    intro tokens others same
    cases same with
    | nil => exact ends
    | cons moved _ => exact moved
  rw [query, query, ← (head same).isKeyword]
  refine .guard (head same) fun _ => ?_
  refine (agree_selectList ends .first (forall₂_drop 1 same)).bind ?_
  rintro ⟨items, rest⟩ ⟨items', rest'⟩ ⟨entries, left⟩
  simp only [← (head left).kind, ← (head left).text]
  refine .guard (head left) fun _ => ?_
  cases compiler.schema.resolve? compiler.packages (rest.headD ending).text with
  | none => exact .atToken (head left) _
  | some type =>
    refine (agree_bindSelect entries none).bind ?_
    rintro selected _ rfl
    refine (agree_windows ends (forall₂_drop 1 left)).bind ?_
    intro windows windows' same
    exact agree_assemble reads ends same _ _ _ _

/-- At every depth restrictions and subqueries are read the same way wherever the tokens stand. -/
theorem steady (compiler : Compiler) (depth : Nat) :
    RestrictionReader.Steady (compiler.restriction depth) ∧ SubqueryReader.Steady (compiler.subquery depth) := by
  induction depth with
  | zero =>
    constructor
    · intro ending ending' tokens others ends same
      cases same with
      | nil => exact .atToken ends _
      | cons moved _ => exact .atToken moved _
    · intro closing closing' tokens others ends same
      cases same with
      | nil => exact .atToken ends _
      | cons moved _ => exact .atToken moved _
  | succ depth ih =>
    constructor
    · intro ending ending' tokens others ends same
      exact agree_level ih.1 ih.2 ends 0 .start same
    · intro closing closing' tokens others ends same
      exact agree_query ih.1 true ends same

/-- Texts with the same tokens. -/
theorem compile_of_lexemes {text other : Text} (found : tokenize text compiler.operators = .ok tokens)
    (found' : tokenize other compiler.operators = .ok others)
    (same : tokens.map Token.lexeme = others.map Token.lexeme) :
    (compiler.compile text).mapError QueryError.unplaced =
      (compiler.compile other).mapError QueryError.unplaced := by
  obtain ⟨⟨_, ending⟩, ran, rfl⟩ := map_eq_ok.mp found
  obtain ⟨⟨_, ending'⟩, ran', rfl⟩ := map_eq_ok.mp found'
  have ends : ending.Moved ending' :=
    Token.moved_of_lexeme ((Lexer.run_ending ran).trans (Lexer.run_ending ran').symm)
  have moved : Forall₂ Token.Moved _ _ := forall₂_moved same
  rw [compile, compile, ran, ran']
  exact (agree_query (compiler.steady compiler.maxDepth).1 false ends moved).mapError_eq

end Compiler

/-- The texts of the tokens with single spaces between them have the same tokens. -/
theorem tokenize_join {text operators : Text} (default : operators ∈ [[], Lexer.defaultOperators])
    (found : tokenize text operators = .ok tokens) :
    ∃ again, tokenize (Text.join " " (tokens.map (·.text))) operators = .ok again ∧
      again.map Token.lexeme = tokens.map Token.lexeme := by
  have start : ∀ text, (Lexer.start text operators).operators = Lexer.defaultOperators := by
    intro text
    rcases List.mem_pair.mp default with rfl | rfl <;> rfl
  obtain ⟨⟨tokens, ending⟩, ran, rfl⟩ := map_eq_ok.mp found
  obtain ⟨again, ending', ran', same⟩ :=
    Lexer.run_join (Lexer.start (Text.join " " (tokens.map (·.text))) operators) ran (start text)
      ((start _).trans (start text).symm) rfl (List.forall_mem_nil _) rfl
  exact ⟨again, map_eq_ok.mpr ⟨_, ran', rfl⟩, same⟩

/-- Layout does not matter. With the default operator characters, the texts of the tokens with single spaces between
them have the same tokens, and texts with the same tokens are the same query, or the same error at other places. -/
theorem Compiler.compile_layout (compiler : Compiler) (text other : Text) :
    (∀ operators ∈ [[], Lexer.defaultOperators], ∀ tokens, tokenize text operators = .ok tokens →
      ∃ again, tokenize (Text.join " " (tokens.map (·.text))) operators = .ok again ∧
        again.map Token.lexeme = tokens.map Token.lexeme) ∧
    ∀ tokens others, tokenize text compiler.operators = .ok tokens →
      tokenize other compiler.operators = .ok others →
      tokens.map Token.lexeme = others.map Token.lexeme →
      (compiler.compile text).mapError QueryError.unplaced =
        (compiler.compile other).mapError QueryError.unplaced := by
  constructor
  · intro operators default tokens found
    exact tokenize_join default found
  · intro tokens others found found' same
    exact compile_of_lexemes found found' same

/-- The sign belongs to the number, for an operator stands before it. The last comparison lacks its value. -/
def nestText : Text := "SELECT name\nFROM Pigeon\n\tWHERE(id<=-1)OR mate.name<>"

theorem nests_layout : ∃ tokens again, tokenize nestText [] = .ok tokens ∧
    tokenize (Text.join " " (tokens.map (·.text))) [] = .ok again ∧
    again.map Token.lexeme = tokens.map Token.lexeme ∧ (roostCompiler.compile nestText).toBool = false ∧
    (roostCompiler.compile nestText).mapError QueryError.unplaced =
      (roostCompiler.compile (Text.join " " (tokens.map (·.text)))).mapError QueryError.unplaced := by
  have fails : (roostCompiler.compile nestText).toBool = false := by decide +kernel
  obtain ⟨tokens, found⟩ : ∃ tokens, tokenize nestText [] = .ok tokens := exists_ok_of_toBool (by decide +kernel)
  obtain ⟨spaced, compiles⟩ :=
    Compiler.compile_layout roostCompiler nestText (Text.join " " (tokens.map (·.text)))
  obtain ⟨again, found', same⟩ := spaced [] (.head _) tokens found
  exact ⟨tokens, again, found, found', same, fails, compiles tokens again found found' same.symm⟩

end RecordQuery
