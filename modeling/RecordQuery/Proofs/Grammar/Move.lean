import RecordQuery.Query.Restriction

/-! One step of the reader of restrictions. What a token does on a level depends on the phase alone; what is
nested in the level comes in only when that is carried out. -/
namespace RecordQuery.Query

/-- What a token does on a level. -/
inductive Move where
  /-- The level ends. -/
  | finish (made : Except QueryError Restriction)
  /-- The level goes on. -/
  | advance (opened : Nat) (phase : Phase)
  /-- A nested restriction comes next, and then the level goes on. -/
  | descend (opened : Nat) (phase : Restriction → Phase)
  /-- A nested restriction comes next, and its negation ends the level. -/
  | negate
  /-- What a property is among comes next, in brackets, and ends the level. -/
  | members (property : Token)

namespace Phase

def move (token : Token) (opened : Nat) : Phase → Part → Move
  | start, .opening => .descend (opened + 1) fun first => chain none [first]
  | predicate property .isIn _, .opening => .members property
  | phase, .closing =>
    if opened > 1 then .advance (opened - 1) phase else .finish (phase.close token)
  | chain joined children, .connective connective =>
    if continues joined connective then
      .descend opened fun next => chain (some connective) (children ++ [next])
    else .finish (.error (.atToken token .mixedConnectives))
  | start, .not => .negate
  | subject property, .isNull => .finish (.ok (.isNull property.text))
  | subject property, .relation relation => .advance opened (predicate property relation token)
  | start, .operand =>
    if token.kind = .word then .advance opened (subject token)
    else .finish (.error (.atToken token (.unexpected .property)))
  | predicate property (.compare comparator) _, .operand =>
    if opened ≠ 0 then .finish (.error (.atToken token .unclosedBrackets))
    else .finish (.ok (.comparison comparator property.text (.text token.value)))
  | phase, part => .finish (.error (.atToken token (phase.refusal token part)))

theorem move_closing (token : Token) (opened : Nat) (phase : Phase) : phase.move token opened .closing =
    if opened > 1 then .advance (opened - 1) phase else .finish (phase.close token) := by
  rcases phase with _ | _ | ⟨_, _ | _, _⟩ | _ <;> rfl

end Phase

/-- What was read from fewer tokens. -/
def Parsed.widen {inner tokens : List Token} (shorter : inner.length ≤ tokens.length) (parsed : Parsed inner) :
    Parsed tokens :=
  (parsed.1, ⟨parsed.2.val, Nat.lt_of_lt_of_le parsed.2.property shorter⟩)

theorem splitClosing_within {token closing : Token} {rest inner after : List Token}
    (found : splitClosing 0 rest = some (inner, closing, after)) : after.length < (token :: rest).length :=
  Nat.lt_succ_of_lt (splitClosing_shorter found)

/-- A level from a token on, after what the token does. -/
def Move.run (child : RestrictionReader) (subquery : SubqueryReader) (ending token : Token) (rest : List Token) :
    Move → Except QueryError (Parsed (token :: rest))
  | finish made => do return (← made, ⟨rest, Nat.lt_succ_self _⟩)
  | advance opened phase => do
    return (← level child subquery ending opened phase rest).widen (Nat.le_succ _)
  | descend opened phase => do
    let first ← child ending rest
    return (← level child subquery ending opened (phase first.1) first.2.val).widen
      (Nat.le_of_lt (Nat.lt_succ_of_lt first.2.property))
  | negate => do
    let inner ← child ending rest
    return (.not inner.1, ⟨inner.2.val, Nat.lt_succ_of_lt inner.2.property⟩)
  | members property =>
    match found : splitClosing 0 rest with
    | some (inner, closing, after) => do
      let whole ← membership subquery property token closing inner
      return (whole, ⟨after, splitClosing_within found⟩)
    | none => .error (.atToken token .unmatchedBracket)

section

variable {child : RestrictionReader} {subquery : SubqueryReader} {ending token property : Token}
  {rest inner after : List Token} {closing : Token}

theorem Move.run_members_of_none (missing : splitClosing 0 rest = none) :
    (members property).run child subquery ending token rest = .error (.atToken token .unmatchedBracket) := by
  rw [run]
  split
  · rename_i found
    cases missing.symm.trans found
  · rfl

theorem Move.run_members_of_some (found : splitClosing 0 rest = some (inner, closing, after)) :
    (members property).run child subquery ending token rest = (do
      let whole ← membership subquery property token closing inner
      return (whole, ⟨after, splitClosing_within found⟩)) := by
  rw [run]
  split
  · rename_i again
    cases found.symm.trans again
    rfl
  · rename_i missing
    cases found.symm.trans missing

end

theorem level_cons (child : RestrictionReader) (subquery : SubqueryReader) (ending token : Token)
    (rest : List Token) (opened : Nat) (phase : Phase) :
    level child subquery ending opened phase (token :: rest) =
      (phase.move token opened (Part.ofToken token)).run child subquery ending token rest := by
  rw [level.eq_def]
  cases phase with
  | start =>
    cases part : Part.ofToken token <;> simp only [part, Phase.move]
    case closing | operand => split <;> rfl
    all_goals rfl
  | subject property =>
    cases part : Part.ofToken token <;> simp only [part, Phase.move]
    case closing => split <;> rfl
    all_goals rfl
  | predicate property relation operator =>
    cases relation <;> cases part : Part.ofToken token <;> simp only [part, Phase.move]
    case compare.closing | isIn.closing | compare.operand => split <;> rfl
    case isIn.opening =>
      split
      · rename_i missing
        exact (Move.run_members_of_none missing).symm
      · rename_i found
        exact (Move.run_members_of_some found).symm
    all_goals rfl
  | chain joined children =>
    cases part : Part.ofToken token <;> simp only [part, Phase.move]
    case closing | connective => split <;> rfl
    all_goals rfl

end RecordQuery.Query
