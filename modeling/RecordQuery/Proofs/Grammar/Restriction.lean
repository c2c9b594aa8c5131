import RecordQuery.Proofs.Grammar.Tokens
import RecordQuery.Proofs.Success
import RecordQuery.Query

/-! The grammar of restrictions, and that the reader accepts exactly what it derives. The reader is
one loop that serves brackets, leaves and negations alike; what it may do in each phase is said
once, and everything else follows from that. -/
namespace RecordQuery

namespace Query

/-- Which restrictions a run of tokens stands for. -/
abbrev Language := List Token → Restriction → Prop

/-- Values with commas between them. -/
inductive ListPhrase : List Token → List Value → Prop where
  | one (value : token.IsListValue) : ListPhrase [token] [.text token.value]
  | cons (value : token.IsListValue) (separator : comma.kind = .comma)
      (more : ListPhrase tokens values) :
      ListPhrase (token :: comma :: tokens) (.text token.value :: values)

/-- Restrictions, each after the same connective. -/
inductive ChainPhrase (child : Language) (connective : Connective) :
    List Token → List Restriction → Prop where
  | nil : ChainPhrase child connective [] []
  | cons {token : Token} {phrase tokens : List Token} {restriction : Restriction}
      {restrictions : List Restriction} (joint : token.Spells (.connect connective))
      (next : child phrase restriction) (more : ChainPhrase child connective tokens restrictions) :
      ChainPhrase child connective (token :: (phrase ++ tokens)) (restriction :: restrictions)

/-- One level of the grammar; `child` derives what is nested in it. -/
inductive Phrase (child : Language) (subquery : SubqueryReader) : Language where
  | bracket {opening : Token} {phrase : List Token} {restriction : Restriction} {closing : Token}
      (opens : opening.kind = .opening) (inner : child phrase restriction)
      (closes : closing.kind = .closing) :
      Phrase child subquery (opening :: (phrase ++ [closing])) restriction
  | junction {opening : Token} {phrase : List Token} {restriction : Restriction}
      {connective : Connective} {tokens : List Token} {second : Restriction}
      {restrictions : List Restriction} {closing : Token}
      (opens : opening.kind = .opening) (first : child phrase restriction)
      (more : ChainPhrase child connective tokens (second :: restrictions))
      (closes : closing.kind = .closing) :
      Phrase child subquery (opening :: (phrase ++ (tokens ++ [closing])))
        (.junction connective (restriction :: second :: restrictions))
  | not {token : Token} {phrase : List Token} {restriction : Restriction}
      (negates : token.Spells .not) (inner : child phrase restriction) :
      Phrase child subquery (token :: phrase) (.not restriction)
  | comparison {property token : Token} {comparator : Comparator} {value : Token}
      (path : property.IsPath) (compares : token.Spells (.compare comparator))
      (operand : value.IsOperand) :
      Phrase child subquery [property, token, value]
        (.comparison comparator property.text (.text value.value))
  | isNull {property token : Token} (path : property.IsPath) (tests : token.Spells .isNull) :
      Phrase child subquery [property, token] (.isNull property.text)
  | inValues {property token opening first : Token} {tokens : List Token} {values : List Value}
      {closing : Token} (path : property.IsPath) (tests : token.Spells .isIn)
      (opens : opening.kind = .opening) (plain : first.isKeyword "SELECT" = false)
      (listed : ListPhrase (first :: tokens) values) (closes : closing.kind = .closing) :
      Phrase child subquery (property :: token :: opening :: (first :: tokens ++ [closing]))
        (.inValues property.text values)
  | inQuery {property token opening first closing : Token} {tokens : List Token} {query : Criteria}
      (path : property.IsPath) (tests : token.Spells .isIn)
      (opens : opening.kind = .opening) (selects : first.isKeyword "SELECT" = true)
      (compiled : subquery closing (first :: tokens) = .ok query)
      (closes : closing.kind = .closing) :
      Phrase child subquery (property :: token :: opening :: (first :: tokens ++ [closing]))
        (.inQuery property.text query)

end Query

/-- What the grammar derives with so many levels left. -/
def Compiler.Derives (compiler : Compiler) : Nat → Query.Language
  | 0 => fun _ _ => False
  | depth + 1 => Query.Phrase (compiler.Derives depth) (compiler.subquery depth)


namespace Query

namespace Part

theorem ofToken_eq_opening : Part.ofToken token = .opening ↔ token.kind = .opening := by
  unfold ofToken
  cases token.kind <;> simp
  all_goals
    cases Operator.ofSymbol? token.text with
    | none => simp
    | some operator => cases operator <;> simp [ofOperator]

theorem ofToken_eq_closing : Part.ofToken token = .closing ↔ token.kind = .closing := by
  unfold ofToken
  cases token.kind <;> simp
  all_goals
    cases Operator.ofSymbol? token.text with
    | none => simp
    | some operator => cases operator <;> simp [ofOperator]

theorem ofToken_eq_ofOperator : Part.ofToken token = .ofOperator operator ↔ token.Spells operator := by
  unfold ofToken Token.Spells
  cases token.kind <;> simp
  all_goals
    cases Operator.ofSymbol? token.text with
    | none => cases operator <;> simp [ofOperator]
    | some other => cases other <;> cases operator <;> simp [ofOperator]

/-- Among the tokens of a query nothing but strings and words can be an operand. -/
theorem ofToken_eq_operand (written : token.kind.isWritten = true) :
    Part.ofToken token = .operand ↔ token.IsOperand := by
  unfold ofToken Token.IsOperand Token.IsPath
  cases kind : token.kind <;> simp [kind, TokenKind.isWritten] at written ⊢
  all_goals
    cases Operator.ofSymbol? token.text with
    | none => simp
    | some operator => cases operator <;> simp [ofOperator]

end Part

/-- The reader gives this restriction and leaves these tokens. -/
def Yields (result : Except QueryError (Parsed tokens)) (restriction : Restriction)
    (rest : List Token) : Prop :=
  ∃ shorter, result = .ok (restriction, ⟨rest, shorter⟩)

theorem Yields.unique {result : Except QueryError (Parsed tokens)}
    (one : Yields result restriction rest) (two : Yields result other left) :
    restriction = other ∧ rest = left := by
  obtain ⟨_, same⟩ := one
  obtain ⟨_, again⟩ := two
  cases same.symm.trans again
  exact ⟨rfl, rfl⟩

/-- A longer reading goes on from what the first one leaves. -/
theorem yields_bind_iff {inner : List Token} {result : Except QueryError (Parsed inner)}
    {next : Parsed inner → Except QueryError (Parsed outer)} :
    Yields (result >>= next) restriction rest ↔
      ∃ first middle shorter, result = .ok (first, ⟨middle, shorter⟩) ∧
        Yields (next (first, ⟨middle, shorter⟩)) restriction rest := by
  cases result with
  | error error => simp [Yields, bind, Except.bind]
  | ok parsed =>
    obtain ⟨first, middle, shorter⟩ := parsed
    constructor
    · intro yields
      exact ⟨first, middle, shorter, rfl, yields⟩
    · rintro ⟨_, _, _, same, yields⟩
      cases same
      exact yields

theorem yields_pure_iff {parsed : Parsed tokens} :
    Yields (pure parsed) restriction rest ↔ parsed.1 = restriction ∧ parsed.2.val = rest := by
  obtain ⟨first, middle, shorter⟩ := parsed
  constructor
  · rintro ⟨_, same⟩
    cases same
    exact ⟨rfl, rfl⟩
  · rintro ⟨rfl, rfl⟩
    exact ⟨shorter, rfl⟩

theorem not_yields_error {error : QueryError} :
    ¬ Yields (.error error : Except QueryError (Parsed tokens)) restriction rest := by
  rintro ⟨_, same⟩
  cases same

/-- What is made of a reading at its end. -/
theorem yields_wrap_iff {inner : List Token} {result : Except QueryError (Parsed inner)}
    (wrap : Restriction → Restriction) {shorter : ∀ _ : Parsed inner, _} :
    Yields (result >>= fun parsed => pure (wrap parsed.1, ⟨parsed.2.val, shorter parsed⟩) :
      Except QueryError (Parsed outer)) restriction rest ↔
      ∃ inner, Yields result inner rest ∧ wrap inner = restriction := by
  simp only [yields_bind_iff, yields_pure_iff]
  constructor
  · rintro ⟨inner, _, fewer, read, rfl, rfl⟩
    exact ⟨inner, ⟨fewer, read⟩, rfl⟩
  · rintro ⟨inner, ⟨fewer, read⟩, rfl⟩
    exact ⟨inner, rest, fewer, read, rfl, rfl⟩

theorem yields_pass_iff {inner : List Token} {result : Except QueryError (Parsed inner)}
    {shorter : ∀ _ : Parsed inner, _} :
    Yields (result >>= fun parsed => pure (parsed.1, ⟨parsed.2.val, shorter parsed⟩) :
      Except QueryError (Parsed outer)) restriction rest ↔ Yields result restriction rest := by
  rw [yields_wrap_iff fun whole => whole]
  constructor
  · rintro ⟨_, read, rfl⟩
    exact read
  · intro read
    exact ⟨restriction, read, rfl⟩

/-- One reading after another. -/
theorem yields_seq_iff {inner : List Token} {result : Except QueryError (Parsed inner)}
    (next : Restriction → (middle : List Token) → Except QueryError (Parsed middle))
    {shorter : ∀ (first : Parsed inner) (_ : Parsed first.2.val), _} :
    Yields (result >>= fun first => next first.1 first.2.val >>= fun second =>
        pure (second.1, ⟨second.2.val, shorter first second⟩) :
      Except QueryError (Parsed outer)) restriction rest ↔
      ∃ first middle, Yields result first middle ∧ Yields (next first middle) restriction rest := by
  rw [yields_bind_iff]
  simp only [yields_pass_iff]
  constructor
  · rintro ⟨first, middle, fewer, read, after⟩
    exact ⟨first, middle, ⟨fewer, read⟩, after⟩
  · rintro ⟨first, middle, ⟨fewer, read⟩, after⟩
    exact ⟨first, middle, fewer, read, after⟩

section Level

variable {child : RestrictionReader} {subquery : SubqueryReader} {ending token : Token}
  {tokens rest : List Token} {restriction : Restriction}

theorem level_nil {opened : Nat} {phase : Phase} :
    ¬ Yields (level child subquery ending opened phase []) restriction rest := by
  rw [level]
  exact not_yields_error

/-- What can come at the start of a level. -/
theorem yields_start_iff :
    Yields (level child subquery ending 0 .start (token :: tokens)) restriction rest ↔
      match Part.ofToken token with
      | .opening => ∃ first middle, Yields (child ending tokens) first middle ∧
          Yields (level child subquery ending 1 (.chain none [first]) middle) restriction rest
      | .not => ∃ inner, Yields (child ending tokens) inner rest ∧ .not inner = restriction
      | .operand => token.kind = .word ∧
          Yields (level child subquery ending 0 (.subject token) tokens) restriction rest
      | _ => False := by
  rw [level.eq_def]
  cases part : Part.ofToken token <;> simp only [part]
  case opening =>
    exact yields_seq_iff fun first => level child subquery ending 1 (.chain none [first])
  case not => exact yields_wrap_iff .not
  case operand =>
    by_cases word : token.kind = .word
    · simp only [word, ↓reduceIte, true_and]
      exact yields_pass_iff
    · simp only [word, ↓reduceIte, false_and, not_yields_error]
  all_goals simp [not_yields_error, Phase.close, bind, Except.bind]

/-- What can come after a property. -/
theorem yields_subject_iff {property : Token} :
    Yields (level child subquery ending 0 (.subject property) (token :: tokens))
      restriction rest ↔
      match Part.ofToken token with
      | .isNull => .isNull property.text = restriction ∧ tokens = rest
      | .relation relation =>
        Yields (level child subquery ending 0 (.predicate property relation token) tokens)
          restriction rest
      | _ => False := by
  rw [level.eq_def]
  cases part : Part.ofToken token <;> simp only [part]
  case isNull => exact yields_pure_iff
  case relation => exact yields_pass_iff
  all_goals simp [not_yields_error, Phase.close, bind, Except.bind]

/-- What can come after a property and its operator. -/
theorem yields_predicate_iff {property operator : Token} {relation : Relation} :
    Yields (level child subquery ending 0 (.predicate property relation operator)
      (token :: tokens)) restriction rest ↔
      match relation, Part.ofToken token with
      | .compare comparator, .operand =>
        .comparison comparator property.text (.text token.value) = restriction ∧ tokens = rest
      | .isIn, .opening => ∃ inner closing, splitClosing 0 tokens = some (inner, closing, rest) ∧
          membership subquery property token closing inner = .ok restriction
      | _, _ => False := by
  rw [level.eq_def]
  cases relation <;> cases part : Part.ofToken token <;> simp only [part]
  case compare.operand => exact yields_pure_iff
  case isIn.opening =>
    split
    · rename_i missing
      simp [not_yields_error, missing]
    · rename_i inner closing after found
      cases member : membership subquery property token closing inner with
      | error error =>
        refine iff_of_false not_yields_error ?_
        rintro ⟨_, _, same, made⟩
        cases found.symm.trans same
        cases member.symm.trans made
      | ok whole =>
        refine yields_pure_iff.trans ?_
        constructor
        · rintro ⟨rfl, rfl⟩
          exact ⟨inner, closing, found, member⟩
        · rintro ⟨_, _, same, made⟩
          cases found.symm.trans same
          cases member.symm.trans made
          exact ⟨rfl, rfl⟩
  all_goals simp [not_yields_error, Phase.close, bind, Except.bind]

/-- What can come after a restriction in brackets. -/
theorem yields_chain_iff {joined : Option Connective} {children : List Restriction} :
    Yields (level child subquery ending 1 (.chain joined children) (token :: tokens))
      restriction rest ↔
      match Part.ofToken token with
      | .closing => Phase.close token (.chain joined children) = .ok restriction ∧ tokens = rest
      | .connective connective => Phase.continues joined connective = true ∧
          ∃ next middle, Yields (child ending tokens) next middle ∧
            Yields (level child subquery ending 1
              (.chain (some connective) (children ++ [next])) middle) restriction rest
      | _ => False := by
  rw [level.eq_def]
  cases part : Part.ofToken token <;> simp only [part]
  case closing =>
    cases closed : Phase.close token (.chain joined children) with
    | error error => simp [not_yields_error, bind, Except.bind]
    | ok whole => simp [yields_pure_iff, bind, Except.bind]
  case connective connective =>
    by_cases continued : Phase.continues joined connective = true
    · simp only [continued, ↓reduceIte, true_and]
      exact yields_seq_iff fun next =>
        level child subquery ending 1 (.chain (some connective) (children ++ [next]))
    · simp [continued, not_yields_error]
  all_goals simp [not_yields_error]

end Level

theorem listPhrase_cons_iff :
    ListPhrase (token :: tokens) values ↔ token.IsListValue ∧ ∃ others,
      values = .text token.value :: others ∧ ((tokens = [] ∧ others = []) ∨
        ∃ comma more, tokens = comma :: more ∧ comma.kind = .comma ∧ ListPhrase more others) := by
  constructor
  · intro phrase
    cases phrase with
    | one value => exact ⟨value, [], rfl, .inl ⟨rfl, rfl⟩⟩
    | cons value separator more => exact ⟨value, _, rfl, .inr ⟨_, _, rfl, separator, more⟩⟩
  · rintro ⟨value, others, rfl, ⟨rfl, rfl⟩ | ⟨comma, more, rfl, separator, phrase⟩⟩
    · exact .one value
    · exact .cons value separator phrase

/-- What the list reader still accepts after a value, or, if `needComma` is false, before one. -/
theorem listValues_eq_ok_iff :
    listValues last needComma tokens = .ok values ↔
      if needComma then
        (tokens = [] ∧ values = []) ∨
          ∃ comma more, tokens = comma :: more ∧ comma.kind = .comma ∧ ListPhrase more values
      else ListPhrase tokens values := by
  induction tokens generalizing last needComma values with
  | nil =>
    cases needComma with
    | true => simp [listValues, eq_comm]
    | false =>
      simp only [listValues, Bool.false_eq_true, ↓reduceIte, reduceCtorEq, false_iff]
      intro phrase
      cases phrase
  | cons token tokens ih =>
    rw [listValues]
    cases needComma with
    | true =>
      by_cases comma : token.kind = .comma
      · simp [comma, ih, ← and_assoc]
      · by_cases opens : token.kind = .opening <;> simp [comma, opens]
    | false =>
      rw [if_neg Bool.false_ne_true, listPhrase_cons_iff]
      by_cases value : token.IsListValue
      · have ready : token.kind ≠ .opening ∧ token.kind ≠ .comma ∧
            ¬ (token.kind ≠ .word ∧ token.kind ≠ .string) := by
          rcases value with word | string <;> simp [*]
        simp only [ready, ↓reduceIte, Bool.false_eq_true, false_or, bind_eq_ok, pure_eq_ok, ih,
          value, true_and]
        constructor
        · rintro ⟨others, after, rfl⟩
          exact ⟨others, rfl, after⟩
        · rintro ⟨others, rfl, after⟩
          exact ⟨others, after, rfl⟩
      · have refused : token.kind ≠ .word ∧ token.kind ≠ .string := not_or.mp value
        simp only [value, false_and]
        split
        · simp
        · split
          · simp
          · simp [refused]

theorem ListPhrase.balanced (phrase : ListPhrase tokens values) : Balanced 0 tokens := by
  apply balanced_of_no_bracket
  induction phrase with
  | one value => rcases value with word | string <;> simp [*]
  | cons value separator more ih =>
    rcases value with word | string <;> simp_all

theorem ListPhrase.ne_nil (phrase : ListPhrase tokens values) : values ≠ [] := by
  cases phrase <;> simp

/-- Every link of a chain is derived from some of its tokens. -/
theorem ChainPhrase.exists_of_mem (chain : ChainPhrase child connective tokens restrictions)
    (member : restriction ∈ restrictions) :
    ∃ phrase, child phrase restriction ∧ phrase <:+: tokens := by
  induction chain with
  | nil => cases member
  | @cons token phrase tokens next restrictions joint derived more ih =>
    rcases List.mem_cons.mp member with rfl | later
    · exact ⟨phrase, derived, [token], tokens, rfl⟩
    · obtain ⟨other, derived, before, after, same⟩ := ih later
      refine ⟨other, derived, token :: (phrase ++ before), after, ?_⟩
      rw [← same]
      simp

/-- What stands in the brackets after `IN`. -/
theorem membership_eq_ok_iff {subquery : SubqueryReader} {inner : List Token} :
    membership subquery property opening closing inner = .ok restriction ↔
      ∃ first more, inner = first :: more ∧
        ((first.isKeyword "SELECT" = true ∧ ∃ query, subquery closing inner = .ok query ∧
            .inQuery property.text query = restriction) ∨
          (first.isKeyword "SELECT" = false ∧ ∃ values, ListPhrase inner values ∧
            .inValues property.text values = restriction)) := by
  cases inner with
  | nil => simp [membership]
  | cons first more =>
    rw [membership]
    constructor
    · intro found
      refine ⟨first, more, rfl, ?_⟩
      cases selects : first.isKeyword "SELECT" with
      | true =>
        simp only [selects, ↓reduceIte, bind_eq_ok, pure_eq_ok] at found
        exact .inl ⟨rfl, found⟩
      | false =>
        simp only [selects, Bool.false_eq_true, ↓reduceIte, bind_eq_ok, pure_eq_ok,
          listValues_eq_ok_iff] at found
        exact .inr ⟨rfl, found⟩
    · rintro ⟨_, _, same, ⟨selects, found⟩ | ⟨plain, found⟩⟩
      · cases same
        simp only [selects, ↓reduceIte, bind_eq_ok, pure_eq_ok]
        exact found
      · cases same
        simp only [plain, Bool.false_eq_true, ↓reduceIte, bind_eq_ok, pure_eq_ok,
          listValues_eq_ok_iff]
        exact found

section Level

variable {child : RestrictionReader} {subquery : SubqueryReader} {ending : Token}
  {language : Language}

/-- The reader accepts exactly the phrases of a language at the start of its tokens. -/
def Reads (child : RestrictionReader) (language : Language) (ending : Token) : Prop :=
  ∀ tokens, (∀ token ∈ tokens, token.kind.isWritten = true) → ∀ restriction rest,
    Yields (child ending tokens) restriction rest ↔
      ∃ phrase, tokens = phrase ++ rest ∧ language phrase restriction

/-- A chain that has its connective goes on with it up to the closing bracket. -/
theorem yields_chain_some_iff (reads : Reads child language ending)
    (written : ∀ token ∈ tokens, token.kind.isWritten = true) :
    Yields (level child subquery ending 1 (.chain (some connective) children) tokens)
      restriction rest ↔
      ∃ links others closing, tokens = links ++ closing :: rest ∧
        ChainPhrase language connective links others ∧ closing.kind = .closing ∧
        .junction connective (children ++ others) = restriction := by
  constructor
  · -- Every child takes some of the tokens, so the induction is on how many are left.
    induction size : tokens.length using Nat.strongRecOn generalizing tokens children with
    | ind size ih =>
      intro yields
      cases tokens with
      | nil => exact absurd yields level_nil
      | cons token tokens =>
        rw [yields_chain_iff] at yields
        split at yields
        · rename_i part
          obtain ⟨closed, rfl⟩ := yields
          refine ⟨[], [], token, rfl, .nil, Part.ofToken_eq_closing.mp part, ?_⟩
          rw [List.append_nil]
          exact Except.ok.inj closed
        · rename_i other part
          obtain ⟨same, next, middle, read, chained⟩ := yields
          obtain rfl : connective = other := by simpa [Phase.continues] using same
          have later : ∀ token ∈ tokens, token.kind.isWritten = true :=
            fun token member => written token (by simp [member])
          obtain ⟨phrase, rfl, derived⟩ := (reads tokens later next middle).mp read
          simp only [List.length_cons, List.length_append] at size
          obtain ⟨links, others, closing, rfl, chain, closes, rfl⟩ := ih middle.length (by omega)
            (fun token member => later token (by simp [member])) rfl chained
          refine ⟨token :: (phrase ++ links), next :: others, closing, by simp, ?_, closes, by simp⟩
          exact .cons (Part.ofToken_eq_ofOperator.mp part) derived chain
        · exact yields.elim
  · rintro ⟨links, others, closing, rfl, chain, closes, rfl⟩
    induction chain generalizing children with
    | nil =>
      rw [List.nil_append, yields_chain_iff, Part.ofToken_eq_closing.mpr closes, List.append_nil]
      exact ⟨rfl, rfl⟩
    | @cons token phrase links next others joint derived more ih =>
      have part : Part.ofToken token = .connective connective :=
        Part.ofToken_eq_ofOperator.mpr joint
      rw [List.cons_append, yields_chain_iff, part]
      have later : ∀ token ∈ phrase ++ links ++ closing :: rest, token.kind.isWritten = true :=
        fun token member => written token (by simp at member ⊢; tauto)
      refine ⟨by simp [Phase.continues], next, links ++ closing :: rest, ?_, ?_⟩
      · exact (reads _ later _ _).mpr ⟨phrase, by simp, derived⟩
      · have whole := @ih (children ++ [next])
          fun token member => later token (by simp at member ⊢; tauto)
        simpa using whole

/-- After a connective comes its operand, and then the chain goes on. -/
theorem yields_after_link (reads : Reads child language ending)
    (written : ∀ token ∈ phrase ++ tokens, token.kind.isWritten = true)
    (joint : Token.Spells token (.connect connective)) (derived : language phrase next)
    (yields : Yields (level child subquery ending 1 (.chain joined children)
      (token :: (phrase ++ tokens))) restriction rest) :
    Yields (level child subquery ending 1 (.chain (some connective) (children ++ [next])) tokens)
      restriction rest := by
  have part : Part.ofToken token = .connective connective := Part.ofToken_eq_ofOperator.mpr joint
  rw [yields_chain_iff, part] at yields
  obtain ⟨-, first, middle, read, chained⟩ := yields
  obtain ⟨rfl, rfl⟩ := read.unique ((reads _ written _ _).mpr ⟨phrase, rfl, derived⟩)
  exact chained

/-- What follows the links of a chain is read after all of them. -/
theorem yields_after_links (reads : Reads child language ending)
    (chain : ChainPhrase language connective links others)
    (written : ∀ token ∈ links ++ tokens, token.kind.isWritten = true)
    (yields : Yields (level child subquery ending 1 (.chain (some connective) children)
      (links ++ tokens)) restriction rest) :
    Yields (level child subquery ending 1 (.chain (some connective) (children ++ others)) tokens)
      restriction rest := by
  induction chain generalizing children with
  | nil => simpa using yields
  | @cons token phrase links next others joint derived more ih =>
    rw [List.cons_append, List.append_assoc] at yields written
    have later : ∀ token ∈ phrase ++ (links ++ tokens), token.kind.isWritten = true :=
      fun token member => written token (.tail _ member)
    have after := yields_after_link reads later joint derived yields
    have whole := ih (fun token member => later token (List.mem_append_right _ member)) after
    simpa using whole

/-- Once a chain in brackets has a connective, the other one is refused. -/
theorem not_yields_mixed (reads : Reads child language ending)
    (written : ∀ token ∈ phrase ++ (links ++ stray :: tokens), token.kind.isWritten = true)
    (opens : opening.kind = .opening) (derived : language phrase first)
    (chain : ChainPhrase language connective links (second :: others))
    (joint : Token.Spells stray (.connect other)) (mixed : other ≠ connective) :
    ¬ Yields (level child subquery ending 0 .start
      (opening :: (phrase ++ (links ++ stray :: tokens)))) restriction rest := by
  intro yields
  rw [yields_start_iff, Part.ofToken_eq_opening.mpr opens] at yields
  obtain ⟨_, middle, read, chained⟩ := yields
  obtain ⟨rfl, rfl⟩ := read.unique ((reads _ written _ _).mpr ⟨phrase, rfl, derived⟩)
  have later : ∀ token ∈ links ++ stray :: tokens, token.kind.isWritten = true :=
    fun token member => written token (List.mem_append_right _ member)
  cases chain with
  | @cons link operand links _ _ linked next more =>
    rw [List.cons_append, List.append_assoc] at chained later
    have inside : ∀ token ∈ operand ++ (links ++ stray :: tokens), token.kind.isWritten = true :=
      fun token member => later token (.tail _ member)
    have after := yields_after_link reads inside linked next chained
    have refused := yields_after_links reads more
      (fun token member => inside token (List.mem_append_right _ member)) after
    have part : Part.ofToken stray = .connective other := Part.ofToken_eq_ofOperator.mpr joint
    rw [yields_chain_iff, part] at refused
    have same : connective = other := by simpa [Phase.continues] using refused.1
    exact mixed same.symm

/-- After the first restriction in brackets comes the closing bracket or a chain. -/
theorem yields_chain_none_iff (reads : Reads child language ending)
    (written : ∀ token ∈ tokens, token.kind.isWritten = true) :
    Yields (level child subquery ending 1 (.chain none [first]) tokens) restriction rest ↔
      (∃ closing, tokens = closing :: rest ∧ closing.kind = .closing ∧ first = restriction) ∨
      ∃ connective links second others closing, tokens = links ++ closing :: rest ∧
        ChainPhrase language connective links (second :: others) ∧ closing.kind = .closing ∧
        .junction connective (first :: second :: others) = restriction := by
  cases tokens with
  | nil => simp [level_nil]
  | cons token tokens =>
    have later : ∀ token ∈ tokens, token.kind.isWritten = true :=
      fun token member => written token (by simp [member])
    rw [yields_chain_iff]
    constructor
    · intro yields
      split at yields
      · rename_i part
        obtain ⟨closed, rfl⟩ := yields
        exact .inl ⟨token, rfl, Part.ofToken_eq_closing.mp part, Except.ok.inj closed⟩
      · rename_i connective part
        obtain ⟨_, second, middle, read, chained⟩ := yields
        obtain ⟨phrase, rfl, derived⟩ := (reads tokens later second middle).mp read
        obtain ⟨links, others, closing, rfl, chain, closes, rfl⟩ := (yields_chain_some_iff reads
          (fun token member => later token (by simp [member]))).mp chained
        refine .inr ⟨connective, token :: (phrase ++ links), second, others, closing, by simp, ?_,
          closes, rfl⟩
        exact .cons (Part.ofToken_eq_ofOperator.mp part) derived chain
      · exact yields.elim
    · rintro (⟨closing, same, closes, rfl⟩ |
        ⟨connective, links, second, others, closing, shape, chain, closes, rfl⟩)
      · cases same
        rw [Part.ofToken_eq_closing.mpr closes]
        exact ⟨rfl, rfl⟩
      · cases chain with
        | @cons _ phrase links _ _ spells derived chain =>
          obtain ⟨rfl, rfl⟩ := List.cons.inj shape
          have part : Part.ofToken token = .connective connective :=
            Part.ofToken_eq_ofOperator.mpr spells
          rw [part]
          refine ⟨rfl, second, links ++ closing :: rest, ?_, ?_⟩
          · exact (reads _ later _ _).mpr ⟨phrase, by simp, derived⟩
          · apply (yields_chain_some_iff reads
              fun token member => later token (by simp at member ⊢; tauto)).mpr
            exact ⟨links, others, closing, rfl, chain, closes, rfl⟩

/-- What the reader makes of the tokens after a property is a leaf of the grammar. -/
theorem phrase_of_subject (path : property.IsPath)
    (written : ∀ token ∈ tokens, token.kind.isWritten = true)
    (yields : Yields (level child subquery ending 0 (.subject property) tokens) restriction rest) :
    ∃ phrase, tokens = phrase ++ rest ∧
      Phrase language subquery (property :: phrase) restriction := by
  cases tokens with
  | nil => exact absurd yields level_nil
  | cons operator tokens =>
    rw [yields_subject_iff] at yields
    split at yields
    · rename_i part
      obtain ⟨rfl, rfl⟩ := yields
      exact ⟨[operator], rfl, .isNull path (Part.ofToken_eq_ofOperator.mp part)⟩
    · rename_i relation part
      cases tokens with
      | nil => exact absurd yields level_nil
      | cons token tokens =>
        rw [yields_predicate_iff] at yields
        split at yields
        · rename_i comparator value
          obtain ⟨rfl, rfl⟩ := yields
          refine ⟨[operator, token], rfl, .comparison path ?_ ?_⟩
          · exact Part.ofToken_eq_ofOperator.mp part
          · exact (Part.ofToken_eq_operand (written token (by simp))).mp value
        · rename_i opens
          obtain ⟨inner, closing, found, member⟩ := yields
          obtain ⟨rfl, closes, _⟩ := splitClosing_eq_some_iff.mp found
          have tests : operator.Spells .isIn := Part.ofToken_eq_ofOperator.mp part
          have opening := Part.ofToken_eq_opening.mp opens
          refine ⟨operator :: token :: (inner ++ [closing]), by simp, ?_⟩
          obtain ⟨first, more, rfl, ⟨selects, query, compiled, rfl⟩ | ⟨plain, values, listed, rfl⟩⟩ :=
            membership_eq_ok_iff.mp member
          · exact .inQuery path tests opening selects compiled closes
          · exact .inValues path tests opening plain listed closes
        · exact yields.elim
    · exact yields.elim

theorem phrase_of_yields (reads : Reads child language ending)
    (written : ∀ token ∈ tokens, token.kind.isWritten = true)
    (yields : Yields (level child subquery ending 0 .start tokens) restriction rest) :
    ∃ phrase, tokens = phrase ++ rest ∧ Phrase language subquery phrase restriction := by
  cases tokens with
  | nil => exact absurd yields level_nil
  | cons token tokens =>
    have later : ∀ token ∈ tokens, token.kind.isWritten = true :=
      fun token member => written token (by simp [member])
    rw [yields_start_iff] at yields
    split at yields
    · rename_i part
      have opens := Part.ofToken_eq_opening.mp part
      obtain ⟨first, middle, read, chained⟩ := yields
      obtain ⟨phrase, rfl, derived⟩ := (reads tokens later first middle).mp read
      rcases (yields_chain_none_iff reads fun token member => later token (by simp [member])).mp
        chained with ⟨closing, rfl, closes, rfl⟩ |
          ⟨connective, links, second, others, closing, rfl, chain, closes, rfl⟩
      · exact ⟨token :: (phrase ++ [closing]), by simp, .bracket opens derived closes⟩
      · exact ⟨token :: (phrase ++ (links ++ [closing])), by simp,
          .junction opens derived chain closes⟩
    · rename_i part
      obtain ⟨inner, read, rfl⟩ := yields
      obtain ⟨phrase, rfl, derived⟩ := (reads tokens later inner rest).mp read
      exact ⟨token :: phrase, rfl, .not (Part.ofToken_eq_ofOperator.mp part) derived⟩
    · rename_i part
      obtain ⟨word, yields⟩ := yields
      have path : token.IsPath := by
        rcases (Part.ofToken_eq_operand (written token (by simp))).mp part with string | path
        · rw [word] at string
          cases string
        · exact path
      obtain ⟨phrase, rfl, derived⟩ := phrase_of_subject path later yields
      exact ⟨token :: phrase, rfl, derived⟩
    · exact yields.elim

theorem yields_start_path (path : property.IsPath)
    (yields : Yields (level child subquery ending 0 (.subject property) tokens) restriction rest) :
    Yields (level child subquery ending 0 .start (property :: tokens)) restriction rest := by
  have part : Part.ofToken property = .operand := by simp [Part.ofToken, path.1, path.2]
  rw [yields_start_iff, part]
  exact ⟨path.1, yields⟩

theorem yields_membership {inner : List Token} (path : property.IsPath) (tests : operator.Spells .isIn)
    (opens : opening.kind = .opening) (closes : closing.kind = .closing)
    (balanced : Balanced 0 inner)
    (member : membership subquery property opening closing inner = .ok restriction) :
    Yields (level child subquery ending 0 .start
      (property :: operator :: opening :: (inner ++ closing :: rest))) restriction rest := by
  have part : Part.ofToken operator = .relation .isIn := Part.ofToken_eq_ofOperator.mpr tests
  apply yields_start_path path
  rw [yields_subject_iff, part]
  refine yields_predicate_iff.mpr ?_
  rw [Part.ofToken_eq_opening.mpr opens]
  exact ⟨inner, closing, splitClosing_eq_some_iff.mpr ⟨rfl, closes, balanced⟩, member⟩

theorem yields_of_phrase (reads : Reads child language ending)
    (balanced : ∀ closing tokens query, closing.kind = .closing →
      subquery closing tokens = .ok query → Balanced 0 tokens)
    (written : ∀ token ∈ phrase ++ rest, token.kind.isWritten = true)
    (derived : Phrase language subquery phrase restriction) :
    Yields (level child subquery ending 0 .start (phrase ++ rest)) restriction rest := by
  cases derived with
  | @bracket opening phrase _ closing opens inner closes =>
    rw [List.cons_append, List.append_assoc] at written ⊢
    have later : ∀ token ∈ phrase ++ ([closing] ++ rest), token.kind.isWritten = true :=
      fun token member => written token (.tail _ member)
    rw [yields_start_iff, Part.ofToken_eq_opening.mpr opens]
    refine ⟨restriction, [closing] ++ rest, (reads _ later _ _).mpr ⟨phrase, rfl, inner⟩, ?_⟩
    exact (yields_chain_none_iff reads fun token member => later token (by simp_all)).mpr
      (.inl ⟨closing, rfl, closes, rfl⟩)
  | @junction opening phrase first connective tokens second others closing opens inner more closes =>
    rw [List.cons_append, List.append_assoc, List.append_assoc] at written ⊢
    have later : ∀ token ∈ phrase ++ (tokens ++ ([closing] ++ rest)), token.kind.isWritten = true :=
      fun token member => written token (.tail _ member)
    rw [yields_start_iff, Part.ofToken_eq_opening.mpr opens]
    refine ⟨first, tokens ++ ([closing] ++ rest),
      (reads _ later _ _).mpr ⟨phrase, rfl, inner⟩, ?_⟩
    exact (yields_chain_none_iff reads fun token member => later token (by simp_all)).mpr
      (.inr ⟨connective, tokens, second, others, closing, rfl, more, closes, rfl⟩)
  | @not token phrase inner negates derived =>
    have part : Part.ofToken token = .not := Part.ofToken_eq_ofOperator.mpr negates
    rw [List.cons_append] at written ⊢
    rw [yields_start_iff, part]
    exact ⟨inner, (reads _ (fun token member => written token (.tail _ member)) _ _).mpr
      ⟨phrase, rfl, derived⟩, rfl⟩
  | @comparison property token comparator value path compares operand =>
    have part : Part.ofToken token = .relation (.compare comparator) :=
      Part.ofToken_eq_ofOperator.mpr compares
    simp only [List.cons_append, List.nil_append]
    apply yields_start_path path
    rw [yields_subject_iff, part]
    refine yields_predicate_iff.mpr ?_
    rw [(Part.ofToken_eq_operand (written value (by simp))).mpr operand]
    exact ⟨rfl, rfl⟩
  | @isNull property token path tests =>
    have part : Part.ofToken token = .isNull := Part.ofToken_eq_ofOperator.mpr tests
    simp only [List.cons_append, List.nil_append]
    apply yields_start_path path
    rw [yields_subject_iff, part]
    exact ⟨rfl, rfl⟩
  | @inValues property token opening first tokens values closing path tests opens plain listed closes =>
    rw [List.cons_append, List.cons_append, List.cons_append, List.append_assoc]
    apply yields_membership path tests opens closes listed.balanced
    exact membership_eq_ok_iff.mpr ⟨first, tokens, rfl, .inr ⟨plain, values, listed, rfl⟩⟩
  | @inQuery property token opening first closing tokens query path tests opens selects compiled closes =>
    rw [List.cons_append, List.cons_append, List.cons_append, List.append_assoc]
    apply yields_membership path tests opens closes (balanced _ _ _ closes compiled)
    exact membership_eq_ok_iff.mpr ⟨first, tokens, rfl, .inl ⟨selects, query, compiled, rfl⟩⟩

end Level
end Query
end RecordQuery
