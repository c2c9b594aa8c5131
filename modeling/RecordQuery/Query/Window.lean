import RecordQuery.Error

/-! The clauses after the type name of a query. Each is a keyword and the tokens up to the next
one; what stands in brackets belongs to the clause, keywords and all. -/
namespace RecordQuery.Query

structure Window where
  clause : Clause
  keyword : Token
  /-- The `BY` of a two-word keyword. -/
  second : Option Token
  tokens : List Token
  deriving DecidableEq, Repr

/-- All tokens of a clause. -/
def Window.all (window : Window) : List Token :=
  window.keyword :: window.second.toList ++ window.tokens

/-- The clause of a keyword that stands alone. -/
def loneClause? (token : Token) : Option Clause :=
  if token.isKeyword "WHERE" then some .where_
  else if token.isKeyword "LIMIT" then some .limit
  else if token.isKeyword "OFFSET" then some .offset
  else none

/-- The clause of a keyword that `BY` follows. -/
def byClause? (token : Token) : Option Clause :=
  if token.isKeyword "GROUP" then some .groupBy
  else if token.isKeyword "ORDER" then some .orderBy
  else none

/-- The window that starts at a token, if one does, without its tokens. -/
def windowAt (token : Token) (rest : List Token) : Except QueryError (Option Window) :=
  match loneClause? token with
  | some clause => .ok (some ⟨clause, token, none, []⟩)
  | none =>
    match byClause? token, rest with
    | some _, [] => .error (.atToken token (.danglingKeyword token.text))
    | some clause, next :: _ =>
      .ok (if next.isKeyword "BY" then some ⟨clause, token, some next, []⟩ else none)
    | none, _ => .ok none

/-- Clauses come at most once and in order; `seen` are those before, the last one first. -/
def checkOrder (seen : List Clause) (opened : Window) : Except QueryError Unit :=
  if seen.contains opened.clause then
    .error (.atToken opened.keyword (.duplicateClause opened.clause))
  else if seen.head?.any fun last => opened.clause.rank < last.rank then
    .error (.atToken opened.keyword (.misplaced opened.keyword.text))
  else .ok ()

/-- The tokens that still belong to the current clause, and the windows after it. `seen` are the
clauses so far, the current one first; `depth` is how many brackets are open. -/
def windowsFrom (ending : Token) (seen : List Clause) (depth : Nat) :
    List Token → Except QueryError (List Token × List Window)
  | [] => if depth = 0 then .ok ([], []) else .error (.atToken ending .unmatchedBracket)
  | token :: rest =>
    let keep (depth : Nat) : Except QueryError (List Token × List Window) := do
      let (tokens, later) ← windowsFrom ending seen depth rest
      return (token :: tokens, later)
    if token.kind = .opening then keep (depth + 1)
    else if token.kind = .closing then
      if depth = 0 then .error (.atToken token .unmatchedBracket) else keep (depth - 1)
    else if depth ≠ 0 then keep depth
    else
      match windowAt token rest with
      | .error e => .error e
      | .ok none => keep 0
      | .ok (some opened) => do
        checkOrder seen opened
        let (tokens, later) ← match opened.second, rest with
          | some _, _ :: rest => windowsFrom ending (opened.clause :: seen) 0 rest
          | _, rest => windowsFrom ending (opened.clause :: seen) 0 rest
        return ([], { opened with tokens } :: later)

/-- The windows of the clauses in order. -/
def windows (ending : Token) : List Token → Except QueryError (List Window)
  | [] => .ok []
  | token :: rest => do
    let some opened ← windowAt token rest | .error (.atToken token (.unexpected .clause))
    let (tokens, later) ←
      windowsFrom ending [opened.clause] 0 (rest.drop opened.second.toList.length)
    return { opened with tokens } :: later

/-- The window of a clause, and the token after it. -/
def window? (ending : Token) (clause : Clause) : List Window → Option (Window × Token)
  | [] => none
  | window :: rest =>
    if window.clause = clause then
      some (window, (rest.head?.map (·.keyword)).getD ending)
    else window? ending clause rest

end RecordQuery.Query
