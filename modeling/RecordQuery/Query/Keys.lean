import RecordQuery.Criteria
import RecordQuery.Error

namespace RecordQuery.Query

/-- The keys of a list clause up to where it stops making sense. -/
structure Keys (α : Type) where
  keys : List α
  failure : Option QueryError

namespace Keys

variable {α : Type}

def done : Keys α := ⟨[], none⟩

def stop (token : Token) (cause : Cause) : Keys α := ⟨[], some (.atToken token cause)⟩

def cons (key : α) (keys : Keys α) : Keys α := { keys with keys := key :: keys.keys }

end Keys

/-- The keys after `last`, which is a key if a comma is needed. -/
def groupKeysFrom (last : Token) (needComma : Bool) : List Token → Keys Token
  | [] => if needComma then .done else .stop last .groupComma
  | token :: rest =>
    if token.kind = .comma then
      if needComma then groupKeysFrom token false rest else .stop token .groupComma
    else if needComma ∨ token.kind ≠ .word then .stop token (.unexpected .commaOrGroupKey)
    else .cons token (groupKeysFrom token true rest)

/-- The grouping keys of a clause. -/
def groupKeys (keyword : Token) (tokens : List Token) : Keys Token :=
  if tokens.isEmpty then .stop keyword (.emptyClause .groupBy)
  else groupKeysFrom keyword false tokens

/-- A sort key that is being read; its direction may still come. -/
structure PendingKey where
  token : Token
  direction : Option Direction

def PendingKey.finish (key : PendingKey) : Token × Direction :=
  (key.token, key.direction.getD .asc)

/-- The sort keys of a clause, each with its direction. `next` is the token after the clause. -/
def orderKeys (next : Token) (pending : Option PendingKey) : List Token → Keys (Token × Direction)
  | [] =>
    match pending with
    | none => .stop next .orderEnd
    | some key => .cons key.finish .done
  | token :: rest =>
    if token.kind = .comma then
      match pending with
      | none => .stop token .orderComma
      | some key => .cons key.finish (orderKeys next none rest)
    else if token.kind ≠ .word then .stop token (.unexpected .commaOrOrderKey)
    else
      match pending with
      | none => orderKeys next (some ⟨token, none⟩) rest
      | some ⟨key, none⟩ =>
        match Direction.ofName? token.text with
        | some direction => orderKeys next (some ⟨key, some direction⟩) rest
        | none => .stop token (.unexpected .commaOrDirection)
      | some ⟨_, some _⟩ => .stop token (.unexpected .commaOrDirection)

/-- The row count of a limit or an offset: one word, a number that fits 64 bits with sign. -/
def rowCount (count : RowCount) (keyword : Token) : List Token → Except QueryError Int
  | [] => .error (.atToken keyword (.missingInteger count))
  | first :: rest =>
    match Text.toInt? first.text with
    | some n =>
      if rest.isEmpty ∧ first.kind = .word ∧ 0 ≤ n ∧ n < 0x8000000000000000 then .ok n
      else .error (.atToken first (.expectedInteger count))
    | none => .error (.atToken first (.expectedInteger count))

end RecordQuery.Query
