import RecordQuery.Proofs.Grammar.Move
import RecordQuery.Proofs.Grammar.Query

/-! Where the reader of restrictions stands in the brackets. Around everything it reads there is a
bracket that the last token closes, so there is a token ahead of it at any time; and what it takes for a
restriction closes just the brackets that it opens. -/
namespace RecordQuery

namespace Query

/-- So many brackets are open, and the last token closes the last of them. -/
def Enclosed : Nat → List Token → Prop
  | depth, [] => depth = 0
  | depth, token :: rest => depth ≠ 0 ∧ Enclosed (openAfter token depth) rest

theorem Enclosed.of_append {inner : List Token} (balanced : Balanced depth inner)
    (enclosed : Enclosed (depth + more) (inner ++ rest)) : Enclosed more rest := by
  induction inner generalizing depth with
  | nil =>
    cases balanced
    rwa [Nat.zero_add] at enclosed
  | cons token inner ih =>
    apply ih balanced.2
    rw [← openAfter_add balanced.1]
    exact enclosed.2

theorem Enclosed.eq_nil (enclosed : Enclosed 0 tokens) : tokens = [] := by
  cases tokens with
  | nil => rfl
  | cons token tokens => exact absurd rfl enclosed.1

theorem enclosed_of_balanced {inner : List Token} (balanced : Balanced depth inner)
    (closes : closing.kind = .closing) : Enclosed (depth + 1) (inner ++ [closing]) := by
  induction inner generalizing depth with
  | nil =>
    cases balanced
    simp [Enclosed, openAfter, closes]
  | cons token inner ih =>
    refine ⟨Nat.succ_ne_zero depth, ?_⟩
    rw [openAfter_add balanced.1]
    exact ih balanced.2

/-- The bracket that closes the current level is there. -/
theorem Enclosed.exists_splitClosing (enclosed : Enclosed (depth + (more + 1)) tokens) :
    ∃ inner closing rest, splitClosing depth tokens = some (inner, closing, rest) := by
  induction tokens generalizing depth with
  | nil => exact absurd enclosed (by simp [Enclosed])
  | cons token tokens ih =>
    rw [splitClosing]
    split
    · exact ⟨[], token, tokens, rfl⟩
    · rename_i inside
      have later := enclosed.2
      rw [openAfter_add inside] at later
      obtain ⟨inner, closing, rest, found⟩ := ih later
      refine ⟨token :: inner, closing, rest, ?_⟩
      change (splitClosing (openAfter token depth) tokens).map _ = _
      rw [found]
      rfl

/-- What is in the brackets after `IN` is read once they are closed. -/
theorem level_isIn {child : RestrictionReader} {subquery : SubqueryReader} {ending token : Token}
    {tokens inner : List Token} (part : Part.ofToken token = .opening)
    (found : splitClosing 0 tokens = some (inner, closing, rest)) :
    level child subquery ending opened (.predicate property .isIn operator) (token :: tokens) = (do
      let whole ← membership subquery property token closing inner
      return (whole, ⟨rest, Nat.lt_succ_of_lt (splitClosing_shorter found)⟩)) := by
  rw [level_cons, part]
  exact Move.run_members_of_some found

/-- The tokens that are still to be read where so many brackets are open. -/
structure Ahead (depth : Nat) (tokens : List Token) : Prop where
  written : ∀ token ∈ tokens, token.kind.isWritten = true
  enclosed : Enclosed depth tokens

namespace Ahead

theorem not_nil : ¬ Ahead (depth + 1) [] := by
  intro ahead
  exact absurd ahead.enclosed (Nat.succ_ne_zero depth)

/-- What is in brackets that match is enclosed by the bracket that closes it. -/
theorem of_balanced {inner : List Token} (balanced : Balanced depth inner)
    (written : ∀ token ∈ inner, token.kind.isWritten = true) (closes : closing.kind = .closing) :
    Ahead (depth + 1) (inner ++ [closing]) := by
  refine ⟨?_, enclosed_of_balanced balanced closes⟩
  exact List.forall_mem_append.mpr ⟨written, by simp [closes, TokenKind.isWritten]⟩

theorem of_append {inner : List Token} (ahead : Ahead (depth + more) (inner ++ rest))
    (balanced : Balanced depth inner) : Ahead more rest :=
  ⟨fun token member => ahead.written token (List.mem_append_right _ member),
    ahead.enclosed.of_append balanced⟩

theorem of_opening (ahead : Ahead (depth + 1) (token :: rest)) (opens : token.kind = .opening) :
    Ahead (depth + 2) rest := by
  refine ⟨fun other member => ahead.written other (.tail _ member), ?_⟩
  simpa [openAfter, opens] using ahead.enclosed.2

theorem of_closing (ahead : Ahead (depth + 1) (token :: rest)) (closes : token.kind = .closing) :
    Ahead depth rest := by
  refine ⟨fun other member => ahead.written other (.tail _ member), ?_⟩
  simpa [openAfter, closes] using ahead.enclosed.2

theorem of_part (ahead : Ahead (depth + 1) (token :: rest)) (opens : Part.ofToken token ≠ .opening)
    (closes : Part.ofToken token ≠ .closing) : Ahead (depth + 1) rest := by
  rw [ne_eq, Part.ofToken_eq_opening] at opens
  rw [ne_eq, Part.ofToken_eq_closing] at closes
  refine ⟨fun other member => ahead.written other (.tail _ member), ?_⟩
  simpa [openAfter, opens, closes] using ahead.enclosed.2

/-- The brackets after `IN` are closed, and what follows them is enclosed as before. -/
theorem exists_splitClosing (ahead : Ahead (depth + 2) tokens) :
    ∃ inner closing rest, splitClosing 0 tokens = some (inner, closing, rest) ∧
      tokens = inner ++ closing :: rest ∧ closing.kind = .closing ∧ Balanced 0 inner ∧
      Ahead (depth + 1) rest := by
  rw [← Nat.zero_add (depth + 2)] at ahead
  obtain ⟨inner, closing, rest, found⟩ := ahead.enclosed.exists_splitClosing
  obtain ⟨rfl, closes, balanced⟩ := splitClosing_eq_some_iff.mp found
  exact ⟨inner, closing, rest, found, rfl, closes, balanced, (ahead.of_append balanced).of_closing closes⟩

end Ahead

theorem Balanced.of_append {inner : List Token} (balanced : Balanced depth inner)
    (whole : Balanced depth (inner ++ rest)) : Balanced 0 rest := by
  induction inner generalizing depth with
  | nil =>
    cases balanced
    exact whole
  | cons token inner ih => exact ih balanced.2 whole.2

/-- What is put in brackets is balanced with them. -/
theorem Balanced.bracket {inner : List Token} (balanced : Balanced 0 inner) (opens : opening.kind = .opening)
    (closes : closing.kind = .closing) : Balanced 0 (opening :: (inner ++ [closing])) := by
  refine ⟨by simp [opens], ?_⟩
  have inside := @surface_of_balanced _ (fun _ _ => True) [] _ _ balanced closes
  simpa [openAfter, opens] using inside.balanced

section Phrase

variable {child : Language} {subquery : SubqueryReader} {phrase links : List Token} {restriction : Restriction}

theorem balanced_of_spells {token : Token} (spells : token.Spells operator) : Balanced 0 [token] := by
  apply balanced_of_no_bracket
  rcases spells.1 with kind | kind <;> simp [kind]

theorem ChainPhrase.balanced (chain : ChainPhrase child connective links restrictions)
    (children : ∀ phrase restriction, child phrase restriction → Balanced 0 phrase) : Balanced 0 links := by
  induction chain with
  | nil => rfl
  | cons joint next more ih => exact (balanced_of_spells joint).append ((children _ _ next).append ih)

/-- A phrase closes just the brackets that it opens. -/
theorem Phrase.balanced (derived : Phrase child subquery phrase restriction)
    (children : ∀ phrase restriction, child phrase restriction → Balanced 0 phrase)
    (subqueries : ∀ closing tokens query, closing.kind = .closing →
      subquery closing tokens = .ok query → Balanced 0 tokens) : Balanced 0 phrase := by
  have leaf : ∀ {property token : Token} {operator}, property.IsPath → token.Spells operator →
      Balanced 0 [property, token] := by
    intro property token operator path spells
    have subject : Balanced 0 [property] := balanced_of_words (by simp [path.1])
    exact subject.append (balanced_of_spells spells)
  cases derived with
  | bracket opens inner closes => exact (children _ _ inner).bracket opens closes
  | junction opens first more closes =>
    rw [← List.append_assoc]
    exact ((children _ _ first).append (more.balanced children)).bracket opens closes
  | not negates inner => exact (balanced_of_spells negates).append (children _ _ inner)
  | comparison path compares operand =>
    refine (leaf path compares).append (balanced_of_no_bracket ?_)
    rcases operand with kind | path
    · simp [kind]
    · simp [path.1]
  | isNull path tests => exact leaf path tests
  | inValues path tests opens plain listed closes =>
    exact (leaf path tests).append (listed.balanced.bracket opens closes)
  | inQuery path tests opens selects compiled closes =>
    exact (leaf path tests).append ((subqueries _ _ _ closes compiled).bracket opens closes)

theorem Phrase.ne_nil (derived : Phrase child subquery phrase restriction) : phrase ≠ [] := by
  cases derived <;> simp

end Phrase
end Query

namespace Compiler

open Query

variable {compiler : Compiler} {depth : Nat} {ending : Token} {tokens rest : List Token}
  {restriction : Restriction}

theorem balanced_of_derives (derived : compiler.Derives depth tokens restriction) : Balanced 0 tokens := by
  induction depth generalizing tokens restriction with
  | zero => exact derived.elim
  | succ depth ih => exact Phrase.balanced derived (fun _ _ => ih) fun _ _ _ => balanced_of_subquery

/-- What is read as a restriction closes just the brackets that it opens. -/
theorem exists_of_restriction (written : ∀ token ∈ tokens, token.kind.isWritten = true)
    (read : Yields (compiler.restriction depth ending tokens) restriction rest) :
    ∃ phrase, tokens = phrase ++ rest ∧ phrase ≠ [] ∧ Balanced 0 phrase := by
  obtain ⟨phrase, shape, derived⟩ := (reads_restriction compiler depth ending tokens written _ _).mp read
  refine ⟨phrase, shape, ?_, balanced_of_derives derived⟩
  cases depth with
  | zero => exact derived.elim
  | succ depth => exact Phrase.ne_nil derived

/-- After a restriction as many brackets are open as before it. -/
theorem ahead_of_restriction (ahead : Ahead (open_ + 1) tokens)
    (read : Yields (compiler.restriction depth ending tokens) restriction rest) :
    rest <:+ tokens ∧ Ahead (open_ + 1) rest := by
  obtain ⟨phrase, rfl, -, balanced⟩ := exists_of_restriction ahead.written read
  rw [← Nat.zero_add (open_ + 1)] at ahead
  exact ⟨List.suffix_append phrase rest, ahead.of_append balanced⟩

/-- A restriction that starts with the bracket around all the tokens takes them all. -/
theorem eq_nil_of_restriction (opens : opening.kind = .opening) (ahead : Ahead 1 tokens)
    (read : Yields (compiler.restriction depth ending (opening :: tokens)) restriction rest) : rest = [] := by
  have written : ∀ token ∈ opening :: tokens, token.kind.isWritten = true :=
    List.forall_mem_cons.mpr ⟨by simp [opens, TokenKind.isWritten], ahead.written⟩
  obtain ⟨phrase, shape, given, balanced⟩ := exists_of_restriction written read
  cases phrase with
  | nil => exact absurd rfl given
  | cons first phrase =>
    obtain ⟨rfl, rfl⟩ := List.cons.inj shape
    have inside : Balanced 1 phrase := by simpa [openAfter, opens] using balanced.2
    exact (ahead.enclosed.of_append inside).eq_nil

end Compiler
end RecordQuery
