import RecordQuery.Criteria
import RecordQuery.Error

/-! Restrictions in a query. A level is a leaf, a negation, or a chain of restrictions in brackets
that all have the same connective between them; so a leaf ends by itself and leaves a connective to
the chain around it. Every bracket, connective, negation and subquery takes one from the depth that
is left. -/
namespace RecordQuery.Query

/-- How a property is related to what follows it. -/
inductive Relation where
  | compare (comparator : Comparator)
  | isIn
  deriving DecidableEq, Repr

def Relation.operator : Relation → Operator
  | compare comparator => .compare comparator
  | isIn => .isIn

/-- What a token can be in a restriction. -/
inductive Part where
  | opening | closing
  | connective (connective : Connective)
  | not
  | isNull
  | relation (relation : Relation)
  /-- Operator characters that make no operator. -/
  | unknown
  | comma
  /-- A property or a value. -/
  | operand
  deriving DecidableEq, Repr

namespace Part

def ofOperator : Operator → Part
  | .compare comparator => relation (.compare comparator)
  | .isIn => relation .isIn
  | .isNull => isNull
  | .connect joining => connective joining
  | .not => not

def ofToken (token : Token) : Part :=
  match token.kind with
  | .opening => opening
  | .closing => closing
  | .comma => comma
  | .operator => ((Operator.ofSymbol? token.text).map ofOperator).getD unknown
  | .word => ((Operator.ofSymbol? token.text).map ofOperator).getD operand
  | _ => operand

end Part

/-- How far a level has been read. -/
inductive Phase where
  | start
  | subject (property : Token)
  /-- The operator's own token is kept for error messages. -/
  | predicate (property : Token) (relation : Relation) (operator : Token)
  /-- In brackets: the restrictions so far, and what joins them. -/
  | chain (connective : Option Connective) (children : List Restriction)

namespace Phase

/-- Why a token cannot come here. -/
def refusal (token : Token) : Phase → Part → Cause
  | _, .opening => .unexpected .operatorOrValue
  | _, .unknown => .unknownOperator token.text
  | _, .comma => .unexpected .restrictionPart
  | start, .connective connective => .missingOperand (.connect connective)
  | start, .relation relation => .missingOperand relation.operator
  | start, .isNull => .isNullMisplaced
  | start, _ => .unexpected .property
  | subject _, .not => .unexpected .connectiveOrClose
  | subject property, _ => .missingOperator property.text
  | predicate _ _ _, .not => .unexpected .connectiveOrClose
  | predicate _ .isIn _, .operand => .inNeedsBracket
  | predicate _ relation _, _ => .operatorSet relation.operator
  | chain _ _, .connective _ => .mixedConnectives
  | chain _ _, .relation relation => .missingOperand relation.operator
  | chain _ _, .isNull => .isNullMisplaced
  | chain _ _, _ => .unexpected .connectiveOrClose

/-- What a closing bracket makes of a level. -/
def close (closing : Token) : Phase → Except QueryError Restriction
  | start => .error (.atToken closing .emptyRestriction)
  | subject property => .error (.atToken property .incomplete)
  | predicate _ _ operator => .error (.atToken operator .incomplete)
  | chain none [child] => .ok child
  | chain none _ => .error (.atToken closing .incomplete)
  | chain (some connective) children => .ok (.junction connective children)

/-- Whether a connective may go on with a chain. -/
def continues : Option Connective → Connective → Bool
  | none, _ => true
  | some before, connective => before = connective

end Phase

/-- A restriction and the tokens after it, which are fewer. -/
abbrev Parsed (tokens : List Token) : Type :=
  Restriction × { rest : List Token // rest.length < tokens.length }

/-- Reads a restriction; `ending` is the token after all the tokens. -/
abbrev RestrictionReader : Type :=
  (ending : Token) → (tokens : List Token) → Except QueryError (Parsed tokens)

/-- Reads a whole subquery, which the given bracket ends. -/
abbrev SubqueryReader : Type := (closing : Token) → (tokens : List Token) → Except QueryError Criteria

/-- The tokens up to the closing bracket of the current level, the bracket, and the tokens after. -/
def splitClosing : (depth : Nat) → List Token → Option (List Token × Token × List Token)
  | _, [] => none
  | depth, token :: rest =>
    if token.kind = .closing ∧ depth = 0 then some ([], token, rest)
    else
      let deeper :=
        if token.kind = .opening then depth + 1
        else if token.kind = .closing then depth - 1
        else depth
      (splitClosing deeper rest).map fun (inner, after) => (token :: inner, after)

theorem splitClosing_shorter {depth : Nat} {tokens inner rest : List Token} {closing : Token}
    (found : splitClosing depth tokens = some (inner, closing, rest)) :
    rest.length < tokens.length := by
  induction tokens generalizing depth inner with
  | nil => simp [splitClosing] at found
  | cons token tokens ih =>
    unfold splitClosing at found
    split at found
    · simp only [Option.some.injEq, Prod.mk.injEq] at found
      simp [found.2.2]
    · simp only [Option.map_eq_some_iff, Prod.exists, Prod.mk.injEq] at found
      obtain ⟨more, _, _, later, _, rfl, rfl⟩ := found
      exact Nat.lt_succ_of_lt (ih later)

/-- The values of a list; `last` is the token before, a value if a comma is needed. -/
def listValues (last : Token) (needComma : Bool) : List Token → Except QueryError (List Value)
  | [] => if needComma then .ok [] else .error (.atToken last (.unexpected .value))
  | token :: rest =>
    if token.kind = .opening then .error (.atToken token .nestedBracket)
    else if token.kind = .comma then
      if needComma then listValues token false rest
      else .error (.atToken token (.unexpected .value))
    else if needComma ∨ (token.kind ≠ .word ∧ token.kind ≠ .string) then
      .error (.atToken token (.unexpected .commaOrClose))
    else do return .text token.value :: (← listValues token true rest)

/-- What stands in the brackets after `IN`: a subquery or values. -/
def membership (subquery : SubqueryReader) (property opening closing : Token) :
    List Token → Except QueryError Restriction
  | [] => .error (.atToken opening .emptyInList)
  | first :: rest =>
    if first.isKeyword "SELECT" then do
      return .inQuery property.text (← subquery closing (first :: rest))
    else do return .inValues property.text (← listValues opening false (first :: rest))

/-- Reads one level from its current phase on. `opened` counts the brackets opened on it. -/
def level (child : RestrictionReader) (subquery : SubqueryReader) (ending : Token) (opened : Nat)
    (phase : Phase) : (tokens : List Token) → Except QueryError (Parsed tokens)
  | [] => .error (.atToken ending .unmatchedBracket)
  | token :: rest =>
    match phase, Part.ofToken token with
    | .start, .opening => do
      let (first, ⟨rest, _⟩) ← child ending rest
      let (whole, ⟨rest, _⟩) ←
        level child subquery ending (opened + 1) (.chain none [first]) rest
      return (whole, ⟨rest, by simp only [List.length_cons]; omega⟩)
    | .predicate property .isIn _, .opening =>
      match found : splitClosing 0 rest with
      | none => .error (.atToken token .unmatchedBracket)
      | some (inner, closing, rest) => do
        let whole ← membership subquery property token closing inner
        return (whole, ⟨rest, Nat.lt_succ_of_lt (splitClosing_shorter found)⟩)
    | phase, .closing =>
      if opened > 1 then do
        let (whole, ⟨rest, _⟩) ← level child subquery ending (opened - 1) phase rest
        return (whole, ⟨rest, by simp only [List.length_cons]; omega⟩)
      else do return (← phase.close token, ⟨rest, by simp⟩)
    | .chain joined children, .connective connective =>
      if Phase.continues joined connective then do
        let (next, ⟨rest, _⟩) ← child ending rest
        let (whole, ⟨rest, _⟩) ←
          level child subquery ending opened (.chain (some connective) (children ++ [next])) rest
        return (whole, ⟨rest, by simp only [List.length_cons]; omega⟩)
      else .error (.atToken token .mixedConnectives)
    | .start, .not => do
      let (inner, ⟨rest, _⟩) ← child ending rest
      return (.not inner, ⟨rest, by simp only [List.length_cons]; omega⟩)
    | .subject property, .isNull => .ok (.isNull property.text, ⟨rest, by simp⟩)
    | .subject property, .relation relation => do
      let (whole, ⟨rest, _⟩) ←
        level child subquery ending opened (.predicate property relation token) rest
      return (whole, ⟨rest, by simp only [List.length_cons]; omega⟩)
    | .start, .operand =>
      if token.kind = .word then do
        let (whole, ⟨rest, _⟩) ← level child subquery ending opened (.subject token) rest
        return (whole, ⟨rest, by simp only [List.length_cons]; omega⟩)
      else .error (.atToken token (.unexpected .property))
    | .predicate property (.compare comparator) _, .operand =>
      if opened ≠ 0 then .error (.atToken token .unclosedBrackets)
      else .ok (.comparison comparator property.text (.text token.value), ⟨rest, by simp⟩)
    | phase, part => .error (.atToken token (phase.refusal token part))
  termination_by tokens => tokens.length

end RecordQuery.Query
